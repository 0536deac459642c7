import DsdlHeaders.Proofs.Generation.Stages

/-!
# The two policies

A run that goes on after failures tells what a run that aborts would do (`run_policies`): without
failures both do the same, and otherwise the first recorded failure is the one that ends the run
that aborts.

Failures are recorded in the order in which they are met. All contexts are built before the first
header is generated, so the failures of contexts come first (`InOrder`).
-/

namespace DsdlHeaders

namespace Config

variable {config : Config} {folder : String} {template : Template.Compiled}

/-! ## The order of failures -/

/-- Failures of contexts come before all others, and each of the two kinds is in the order of the
definitions. -/
structure InOrder (definitions : List Definition) (failures : List Failure) : Prop where
  distinct : (definitions.map Definition.fullName).Nodup
  stages : ∃ early late, failures = early ++ late ∧
    (∀ failure ∈ early, failure.cause.stage = .context) ∧
    (∀ failure ∈ late, failure.cause.stage = .expand ∨ failure.cause.stage = .write) ∧
    (early.map Failure.fullName).Sublist (definitions.map Definition.fullName) ∧
    (late.map Failure.fullName).Sublist (definitions.map Definition.fullName)

/-- What is found for definitions under their names is in the order of the definitions. -/
theorem filterMap_ordered {α : Type} {find : Definition → Option α} {fullName : α → String}
    (hname : ∀ definition found, find definition = some found →
      fullName found = definition.fullName) (definitions : List Definition) :
    ((definitions.filterMap find).map fullName).Sublist
      (definitions.map Definition.fullName) := by
  induction definitions with
  | nil => exact .slnil
  | cons definition rest ih =>
    rw [List.map_cons]
    cases hfound : find definition with
    | none =>
      rw [List.filterMap_cons_none hfound]
      exact ih.cons _
    | some found =>
      rw [List.filterMap_cons_some hfound, List.map_cons, hname definition found hfound]
      exact ih.cons_cons _

/-- The failures of contexts are in the order of the definitions. -/
theorem contextFailures_ordered (definitions : List Definition) :
    ((definitions.filterMap config.contextFailure?).map Failure.fullName).Sublist
      (definitions.map Definition.fullName) := by
  refine filterMap_ordered (fun definition failure hfailure => ?_) definitions
  unfold contextFailure? at hfailure
  split at hfailure
  · exact absurd hfailure (by simp)
  · rw [← Option.some.inj hfailure]

/-- What is prepared is in the order of the definitions. -/
theorem prepared_ordered (config : Config) (definitions : List Definition) :
    ((definitions.filterMap config.prepared?).map (·.1.fullName)).Sublist
      (definitions.map Definition.fullName) := by
  refine filterMap_ordered (fun definition prepared hprepared => ?_) definitions
  unfold prepared? at hprepared
  split at hprepared
  · rw [← Option.some.inj hprepared]
  · exact absurd hprepared (by simp)

/-- The failures of a run that goes on are in order. -/
theorem inOrder_of_attempts {definitions : List Definition} {before after : Workspace}
    {entries : List Entry} {failures : List Failure} (hvalid : Valid definitions)
    (h : Attempts config folder template (definitions.filterMap config.prepared?) before entries
      failures after) :
    InOrder definitions (definitions.filterMap config.contextFailure? ++ failures) := by
  refine ⟨hvalid.distinct, _, _, rfl, ?_, ?_, contextFailures_ordered definitions, ?_⟩
  · intro failure hfailure
    exact stage_of_mem_contextFailures hfailure
  · intro failure hfailure
    have hstage := h.stage_ne_context failure hfailure
    cases hcause : failure.cause.stage with
    | context => exact absurd hcause hstage
    | expand => exact .inl rfl
    | write => exact .inr rfl
  · exact h.failures_ordered.trans (prepared_ordered config definitions)

/-! ## Going on and aborting -/

/-- Headers below a directory: what comes of a run that goes on after failures, and what would come
of it if it aborted. -/
theorem generateBelow_policies {definitions : List Definition} {before after : Workspace}
    {summary : Summary} (hpolicy : config.policy = .proceed) (hvalid : Valid definitions)
    (h : config.generateBelow folder definitions before = (.ok summary, after)) :
    (summary.failures = [] →
      ({ config with policy := .abort } : Config).generateBelow folder definitions before =
        (.ok summary, after)) ∧
    (∀ failure rest, summary.failures = failure :: rest → ∃ stopped,
      ({ config with policy := .abort } : Config).generateBelow folder definitions before =
        (.error (.failed failure), stopped)) ∧
    InOrder definitions summary.failures := by
  unfold generateBelow at h ⊢
  rw [prepare_of_proceed hpolicy] at h
  rw [prepare_of_abort rfl, contextFailure?_policy, prepared?_policy]
  simp only at h
  split at h
  · exact absurd (Prod.mk.inj h).1 (by simp)
  · rename_i template ready htemplate
    obtain ⟨entries, failures, rfl, hattempts, -⟩ := attempts_of_generateAll h
    simp only [Summary.empty, List.nil_append]
    refine ⟨?_, ?_, inOrder_of_attempts hvalid hattempts⟩
    · -- no failures, so no warnings: both runs look up the template in the same workspace
      intro hnone
      obtain ⟨hearly, rfl⟩ := List.append_eq_nil_iff.mp hnone
      simp only [hearly, List.map_nil, List.append_nil] at htemplate ⊢
      rw [htemplate]
      have hagain := generateAll_of_attempts (hattempts.of_policy .abort) (.inr rfl) Summary.empty
      simpa [Summary.empty] using hagain
    · intro failure rest hfailures
      cases hearly : definitions.filterMap config.contextFailure? with
      | cons first later =>
        rw [hearly, List.cons_append] at hfailures
        obtain ⟨rfl, -⟩ := List.cons.inj hfailures
        exact ⟨before, rfl⟩
      | nil =>
        rw [hearly, List.nil_append] at hfailures
        simp only [hearly, List.map_nil, List.append_nil] at htemplate ⊢
        rw [htemplate]
        exact generateAll_of_failure (hattempts.of_policy .abort) hfailures rfl _

/-- A dry run does not depend on the policy. -/
theorem run_of_dryRun (hdry : config.dryRun = true) (policy : Policy)
    (definitions : List Definition) (workspace : Workspace) :
    ({ config with policy } : Config).run definitions workspace =
      config.run definitions workspace := by
  simp only [run, hdry, if_true]
  rfl

/-- **The two policies agree.** Let a run that goes on after failures return a summary. If it has no
failures, a run that aborts returns the same summary and leaves the same workspace. Otherwise the
run that aborts ends with the first of the failures. The failures of contexts come before all
others, each of the two kinds in the order of the definitions. -/
theorem run_policies {definitions : List Definition} {before after : Workspace}
    {summary : Summary} (hpolicy : config.policy = .proceed)
    (h : config.run definitions before = (.ok summary, after)) :
    (summary.failures = [] →
      ({ config with policy := .abort } : Config).run definitions before = (.ok summary, after)) ∧
    (∀ failure rest, summary.failures = failure :: rest → ∃ stopped,
      ({ config with policy := .abort } : Config).run definitions before =
        (.error (.failed failure), stopped)) ∧
    InOrder definitions summary.failures := by
  rcases run_cases h with ⟨hresult, -⟩ | ⟨error, hresult, -⟩ | ⟨fault, hresult, -⟩ |
    ⟨found, hvalid, hdry, hresult, hnone, -⟩ | ⟨folder, hne, hvalid, hdry, hfolder, hbelow⟩
  · exact absurd hresult (by simp)
  · exact absurd hresult (by simp)
  · exact absurd hresult (by simp)
  · obtain rfl := Except.ok.inj hresult
    rw [run_of_dryRun hdry]
    refine ⟨fun _ => h, ?_, hvalid.distinct, [], [], by simp [hnone]⟩
    intro failure rest hfailures
    exact absurd (hnone.symm.trans hfailures) (by simp)
  · rw [run_eq_generateBelow { config with policy := .abort } hne hvalid hdry hfolder]
    exact generateBelow_policies hpolicy hvalid hbelow

/-- The sample run records the unusable constant before the clash, although the definition of the
clash comes first, and the run that aborts ends with the constant. -/
theorem run_policies_clashing : ∃ summary after failure rest stopped,
    sampleConfig.run sampleDefinitions clashingWorkspace = (.ok summary, after) ∧
    summary.failures = failure :: rest ∧
    summary.failures.map (fun failure => (failure.fullName, failure.cause.stage)) =
      [("a.C", .context), ("a.B", .write)] ∧
    ({ sampleConfig with policy := .abort } : Config).run sampleDefinitions clashingWorkspace =
      (.error (.failed failure), stopped) ∧
    InOrder sampleDefinitions summary.failures := by
  have hreport : (sampleConfig.run sampleDefinitions clashingWorkspace).1.toOption.map
      (fun summary => summary.failures.map fun failure =>
        (failure.fullName, failure.cause.stage)) =
      some [("a.C", .context), ("a.B", .write)] := by
    decide +kernel
  rcases hrun : sampleConfig.run sampleDefinitions clashingWorkspace with ⟨_ | summary, after⟩
  · exact absurd hreport (by simp [hrun, Except.toOption])
  · simp only [hrun, Except.toOption, Option.map_some, Option.some.injEq] at hreport
    obtain ⟨-, hfirst, horder⟩ := run_policies rfl hrun
    rcases hfailures : summary.failures with _ | ⟨failure, rest⟩
    · exact absurd hreport (by simp [hfailures])
    · obtain ⟨stopped, hstopped⟩ := hfirst failure rest hfailures
      exact ⟨summary, after, failure, rest, stopped, rfl, hfailures, hreport, hstopped, horder⟩

end Config

end DsdlHeaders
