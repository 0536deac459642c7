import DsdlHeaders.Proofs.Generation.Stages

/-!
# Dry runs

A dry run tells what a real run would do (`dry_run_predicts`).

* **Refusals.** Both kinds of run refuse for the same reasons, before they look at any file
  (`refusal?`, `run_of_refusal`). Only the spelling of the output directory decides whether it can
  be spelled from the root, never the files.
* **Entries.** A dry run lists all definitions. A real run lists those that do not fail, and it
  spells their paths in the same way: `Attempts.generated` finds behind its entries the
  definitions that they belong to, and a list of definitions that leaves out exactly the failures
  can only be the filtered list (`eq_filter_of_sublist`).

The two runs may start from different files and with different templates in the cache. What they
share is the directory that relative output paths start from.
-/

namespace DsdlHeaders

/-! ## Lists that leave something out -/

/-- A list that leaves out exactly the items with certain keys is the filtered list. -/
theorem eq_filter_of_sublist {α κ : Type} [DecidableEq κ] {key : α → κ} {kept all : List α}
    {left : List κ} (hsub : kept.Sublist all) (hdistinct : (all.map key).Nodup)
    (hperm : (kept.map key ++ left).Perm (all.map key)) :
    kept = all.filter fun item => key item ∉ left := by
  have hdisjoint : ∀ item ∈ kept, key item ∉ left := by
    have hnodup := hperm.nodup_iff.mpr hdistinct
    exact fun item hitem => (List.nodup_append'.mp hnodup).2.2 (List.mem_map_of_mem hitem)
  have hinto : kept.Sublist (all.filter fun item => key item ∉ left) := by
    have hfiltered := hsub.filter fun item => key item ∉ left
    rwa [List.filter_eq_self.mpr (by simpa using hdisjoint)] at hfiltered
  refine hinto.eq_of_length_le ?_
  -- what is not left out has its key among the kept ones, and keys are distinct
  have hkeys : (all.filter fun item => key item ∉ left).map key ⊆ kept.map key := by
    intro k hk
    obtain ⟨item, hitem, rfl⟩ := List.mem_map.mp hk
    obtain ⟨hmem, hleft⟩ := List.mem_filter.mp hitem
    have hsome := hperm.mem_iff.mpr (List.mem_map_of_mem hmem)
    exact (List.mem_append.mp hsome).resolve_right (by simpa using hleft)
  have hnodup := hdistinct.sublist ((List.filter_sublist (l := all)
    (p := fun item => key item ∉ left)).map key)
  simpa using (List.subperm_of_subset hnodup hkeys).length_le

/-- The part of an entry that can be told before anything is written. -/
def Entry.target (entry : Entry) : String × String :=
  (entry.fullName, entry.path)

/-! ## Output directories -/

namespace Path

/-- Only the empty path has no absolute spelling. -/
theorem absolute?_eq_none_iff {current path : String} :
    absolute? current path = none ↔ path = "" := by
  unfold absolute?
  split_ifs with h <;> simp [h]

/-- A path that is spelled from the root does not depend on where relative paths start. -/
theorem absolute?_of_isAbsolute {path : String} (h : isAbsolute path = true)
    (current other : String) : absolute? current path = absolute? other path := by
  simp only [absolute?, h, if_true]

end Path

namespace Config

variable {config : Config} {folder : String} {template : Template.Compiled}
variable {definitions : List Definition}

/-- The same run as a dry run. -/
def dry (config : Config) : Config :=
  { config with dryRun := true }

/-- The same run as one that writes headers. -/
def real (config : Config) : Config :=
  { config with dryRun := false }

/-! ## Refusals -/

/-- Why a run ends before it looks at any file, if it does. -/
def refusal? (config : Config) (definitions : List Definition) : Option RunError :=
  if definitions = [] then some .noTypes
  else
    match validate definitions with
    | .error error => some (.model error)
    | .ok _ => if config.output = "" then some (.file .emptyPath) else none

/-- A run that has no definitions, or no valid ones, or nowhere to work, refuses. -/
theorem refusal?_eq_none_iff (config : Config) (definitions : List Definition)
    (current : String) : config.refusal? definitions = none ↔
    ¬ (definitions = [] ∨ (∃ error, validate definitions = .error error) ∨
      Path.absolute? current config.output = none) := by
  unfold refusal?
  rw [Path.absolute?_eq_none_iff]
  by_cases hnil : definitions = []
  · simp [hnil]
  · cases hchecked : validate definitions with
    | error error => simp [hnil]
    | ok _ => by_cases houtput : config.output = "" <;> simp [hnil, houtput]

/-- A run that refuses ends with the reason and touches nothing. -/
theorem run_of_refusal (config : Config) {error : RunError}
    (h : config.refusal? definitions = some error) (workspace : Workspace) : ∃ log,
      config.run definitions workspace = (.error error, { workspace with log }) := by
  unfold refusal? at h
  unfold run
  by_cases hnil : definitions = []
  · rw [if_pos hnil] at h
    obtain rfl := Option.some.inj h
    exact ⟨workspace.log, by simp [hnil]⟩
  · rw [if_neg hnil] at h
    rw [if_neg (by simpa using hnil)]
    cases hchecked : validate definitions with
    | error found =>
      rw [hchecked] at h
      obtain rfl := Option.some.inj h
      exact ⟨workspace.log, rfl⟩
    | ok checked =>
      simp only [hchecked, Option.ite_none_right_eq_some] at h
      obtain ⟨houtput, herror⟩ := h
      obtain rfl := Option.some.inj herror
      simp only [Path.absolute?_eq_none_iff.mpr houtput]
      exact ⟨_, rfl⟩

/-- A run that does not refuse has valid definitions and a directory to work in. -/
theorem exists_folder_of_refusal?_eq_none (h : config.refusal? definitions = none)
    (current : String) : definitions ≠ [] ∧ Valid definitions ∧
      ∃ folder, Path.absolute? current config.output = some folder := by
  have hnot := (config.refusal?_eq_none_iff definitions current).mp h
  simp only [not_or, not_exists] at hnot
  obtain ⟨hne, hvalid, hfolder⟩ := hnot
  refine ⟨hne, validate_eq_ok_iff.mp ?_, Option.ne_none_iff_exists'.mp hfolder⟩
  cases hchecked : validate definitions with
  | error error => exact absurd hchecked (hvalid error)
  | ok _ => rfl

/-! ## Dry runs -/

/-- Listing the headers only adds to the log. -/
theorem dryRunAll_eq (config : Config) (folder : String) (definitions : List Definition)
    (workspace : Workspace) : ∃ log, config.dryRunAll folder definitions workspace =
      (⟨definitions.map (config.dryEntry folder), []⟩, { workspace with log }) := by
  have hsaid : ∀ (entries : List Entry) (workspace : Workspace), ∃ log,
      entries.foldl (fun workspace entry => workspace.say .info
        ("Would have generated type " ++ entry.fullName ++ " as " ++ entry.path)) workspace =
        { workspace with log } := by
    intro entries
    induction entries with
    | nil => exact fun workspace => ⟨workspace.log, rfl⟩
    | cons entry entries ih => exact fun workspace => ih (workspace.say _ _)
  obtain ⟨log, hlog⟩ := hsaid (definitions.map (config.dryEntry folder)) workspace
  exact ⟨log, by rw [dryRunAll, hlog]⟩

/-- A dry run that does not refuse lists all definitions. -/
theorem run_of_dryRun_true (config : Config) (hdry : config.dryRun = true)
    (h : config.refusal? definitions = none) (workspace : Workspace) : ∃ folder log,
      Path.absolute? workspace.store.currentPath config.output = some folder ∧
      config.run definitions workspace =
        (.ok ⟨definitions.map (config.dryEntry folder), []⟩, { workspace with log }) := by
  obtain ⟨hne, hvalid, folder, hfolder⟩ :=
    exists_folder_of_refusal?_eq_none h workspace.store.currentPath
  obtain ⟨log, hlisted⟩ := config.dryRunAll_eq folder definitions (counted definitions workspace)
  refine ⟨folder, log, hfolder, ?_⟩
  unfold run
  rw [if_neg (by simpa using hne), validate_eq_ok_iff.mpr hvalid]
  simp only [hfolder, hdry, if_true]
  exact congrArg (fun listed => (Except.ok listed.1, listed.2)) hlisted

/-! ## Real runs -/

variable {prepared : List Prepared} {before after : Workspace} {entries : List Entry}
  {failures : List Failure}

/-- Behind the entries of attempts are the definitions that did not fail, in order. -/
theorem Attempts.generated
    (h : Attempts config folder template prepared before entries failures after) :
    ∃ generated : List Definition, generated.Sublist (prepared.map Prod.fst) ∧
      entries.map Entry.target =
        generated.map (fun definition => (config.dryEntry folder definition).target) ∧
      (generated.map Definition.fullName ++ failures.map Failure.fullName).Perm
        (prepared.map (·.1.fullName)) := by
  induction h with
  | nil workspace => exact ⟨[], .slnil, rfl, .refl _⟩
  | @entry definition _ _ _ _ _ _ _ _ _ _ ih =>
    obtain ⟨generated, hsub, hentries, hperm⟩ := ih
    refine ⟨definition :: generated, hsub.cons_cons _, ?_, hperm.cons _⟩
    rw [List.map_cons, List.map_cons, hentries]
    rfl
  | failure _ _ ih =>
    obtain ⟨generated, hsub, hentries, hperm⟩ := ih
    exact ⟨generated, hsub.cons _, hentries, List.perm_middle.trans (hperm.cons _)⟩

/-- The entries of a real run that ends well are those of the definitions that did not fail. -/
theorem targets_of_generateBelow {summary : Summary} (hvalid : Valid definitions)
    (h : config.generateBelow folder definitions before = (.ok summary, after)) :
    summary.entries.map Entry.target =
      (definitions.filter fun definition =>
        definition.fullName ∉ summary.failures.map Failure.fullName).map
          (fun definition => (config.dryEntry folder definition).target) := by
  obtain ⟨prepared, early, cached, working, -, hprepares, -, -, hgenerate⟩ := generateBelow_eq_ok h
  obtain ⟨entries, late, rfl, hattempts, -⟩ := attempts_of_generateAll hgenerate
  obtain ⟨generated, hsub, hentries, hperm⟩ := hattempts.generated
  have honce : (generated.map Definition.fullName ++
      (early ++ late).map Failure.fullName).Perm (definitions.map Definition.fullName) := by
    rw [List.map_append]
    refine (List.perm_append_comm.append_left _).trans ?_
    rw [← List.append_assoc]
    exact (hperm.append_right _).trans hprepares.once
  rw [List.nil_append, hentries,
    eq_filter_of_sublist (hsub.trans hprepares.ordered) hvalid.distinct honce]

/-- Two workspaces give an output path the same absolute spelling: the path does not need a
directory to start from, or both have the same one. -/
theorem absolute?_of_shared {workspace other : Workspace}
    (h : other.store.current = workspace.store.current ∨ Path.isAbsolute config.output = true) :
    Path.absolute? other.store.currentPath config.output =
      Path.absolute? workspace.store.currentPath config.output := by
  rcases h with hcurrent | habsolute
  · rw [Store.currentPath, Store.currentPath, hcurrent]
  · exact Path.absolute?_of_isAbsolute habsolute _ _

/-! ## The prediction -/

/-- **A dry run predicts the real run.** It changes neither files nor cached templates. When it
returns a summary, that lists every definition once and in order, without outcomes and without
failures; and when a real run of the same configuration returns a summary, whatever files and
templates it starts from, its entries have the names and paths of the dry run's entries, in the
same order, less those of the definitions that failed. The dry run refuses exactly when there are no
definitions, when they are not valid, or when the output directory has no absolute spelling; every
real run then refuses with the same error. -/
theorem dry_run_predicts (config : Config) (definitions : List Definition) (before : Workspace) :
    ((config.dry.run definitions before).2.store = before.store ∧
      (config.dry.run definitions before).2.cache = before.cache) ∧
    (∀ listed, (config.dry.run definitions before).1 = .ok listed →
      listed.entries.map Entry.fullName = definitions.map Definition.fullName ∧
      (∀ entry ∈ listed.entries, entry.outcome = none) ∧ listed.failures = [] ∧
      ∀ other : Workspace,
        other.store.current = before.store.current ∨ Path.isAbsolute config.output = true →
        ∀ summary, (config.real.run definitions other).1 = .ok summary →
          summary.entries.map (fun entry => (entry.fullName, entry.path)) =
            (listed.entries.filter fun entry =>
              entry.fullName ∉ summary.failures.map Failure.fullName).map
                fun entry => (entry.fullName, entry.path)) ∧
    ((∃ error, (config.dry.run definitions before).1 = .error error) ↔
      definitions = [] ∨ (∃ error, validate definitions = .error error) ∨
        Path.absolute? before.store.currentPath config.output = none) ∧
    ∀ error, (config.dry.run definitions before).1 = .error error →
      ∀ other : Workspace, (config.real.run definitions other).1 = .error error := by
  have hrefuses := config.refusal?_eq_none_iff definitions before.store.currentPath
  cases hrefusal : config.refusal? definitions with
  | some error =>
    obtain ⟨log, hdry⟩ := config.dry.run_of_refusal hrefusal before
    rw [hdry]
    refine ⟨⟨rfl, rfl⟩, by simp, ?_, ?_⟩
    · have hreason := not_not.mp (hrefuses.not.mp (by simp [hrefusal]))
      exact ⟨fun _ => hreason, fun _ => ⟨error, rfl⟩⟩
    · intro reason hreason other
      obtain rfl := Except.error.inj hreason
      obtain ⟨_, hreal⟩ := config.real.run_of_refusal hrefusal other
      rw [hreal]
  | none =>
    obtain ⟨folder, log, hfolder, hdry⟩ := config.dry.run_of_dryRun_true rfl hrefusal before
    rw [hdry]
    refine ⟨⟨rfl, rfl⟩, ?_, ?_, by simp⟩
    · rintro listed ⟨⟩
      refine ⟨by simp [dryEntry], by simp [dryEntry], rfl, ?_⟩
      intro other hshared summary hsummary
      obtain ⟨hne, hvalid, -⟩ :=
        exists_folder_of_refusal?_eq_none hrefusal before.store.currentPath
      have hsame := (absolute?_of_shared hshared).trans hfolder
      rw [run_eq_generateBelow config.real hne hvalid rfl hsame] at hsummary
      rcases hbelow : config.real.generateBelow folder definitions
        (counted definitions other) with ⟨result, after⟩
      rw [hbelow] at hsummary
      obtain rfl : result = .ok summary := hsummary
      have htargets := targets_of_generateBelow hvalid hbelow
      rw [List.filter_map, List.map_map]
      exact htargets
    · exact ⟨by simp, fun h => absurd h (hrefuses.mp hrefusal)⟩

/-- The dry run of the sample lists three definitions. The real run meets a file in its way, so that
two of them fail, one before and one while headers are written, and the third is left. -/
theorem dry_run_predicts_clashing : ∃ listed summary,
    (sampleConfig.dry.run sampleDefinitions sampleWorkspace).1 = .ok listed ∧
    (sampleConfig.real.run sampleDefinitions clashingWorkspace).1 = .ok summary ∧
    listed.paths = ["/out/a/B.hpp", "/out/a/C.hpp", "/out/D.hpp"] ∧
    summary.failures.map Failure.fullName = ["a.C", "a.B"] ∧
    summary.entries.map (fun entry => (entry.fullName, entry.path)) =
      (listed.entries.filter fun entry =>
        entry.fullName ∉ summary.failures.map Failure.fullName).map
          fun entry => (entry.fullName, entry.path) := by
  have hlisted : (sampleConfig.dry.run sampleDefinitions sampleWorkspace).1.toOption.map
      Summary.paths = some ["/out/a/B.hpp", "/out/a/C.hpp", "/out/D.hpp"] := by
    decide +kernel
  have hfailed : (sampleConfig.real.run sampleDefinitions clashingWorkspace).1.toOption.map
      (fun summary => summary.failures.map Failure.fullName) = some ["a.C", "a.B"] := by
    decide +kernel
  cases hdry : (sampleConfig.dry.run sampleDefinitions sampleWorkspace).1 with
  | error error => simp [hdry, Except.toOption] at hlisted
  | ok listed =>
    cases hreal : (sampleConfig.real.run sampleDefinitions clashingWorkspace).1 with
    | error error => simp [hreal, Except.toOption] at hfailed
    | ok summary =>
      simp only [hdry, Except.toOption, Option.map_some, Option.some.injEq] at hlisted
      simp only [hreal, Except.toOption, Option.map_some, Option.some.injEq] at hfailed
      obtain ⟨-, hpredicts, -⟩ :=
        dry_run_predicts sampleConfig sampleDefinitions sampleWorkspace
      obtain ⟨-, -, -, hentries⟩ := hpredicts listed hdry
      exact ⟨listed, summary, rfl, rfl, hlisted, hfailed,
        hentries clashingWorkspace (.inl rfl) summary hreal⟩

end Config

end DsdlHeaders
