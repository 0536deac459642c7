import DsdlHeaders.Proofs.Generation.Delivery
import DsdlHeaders.Proofs.Store.Hierarchy

/-!
# The stages of a run

What a run does, stage by stage and for both policies.

* **The whole run** ends before any work is done, lists the headers of a dry run, or generates
  headers below a directory (`run_cases`).
* **Preparing** finds the failures of all definitions whatever the policy is; the policy decides
  what becomes of them (`prepare_of_proceed`, `prepare_of_abort`).
* **Generating** is a sequence of attempts. `Attempts` is that sequence without a policy:
  `attempts_of_generateAll` finds it behind a run that ends well, `attempts_of_error` behind one
  that does not, and `generateAll_of_attempts` and `generateAll_of_failure` lead back.
* **What attempts do to a store** is what single writes do: nothing is removed
  (`Attempts.retains`), only the files of the headers are touched (`Attempts.spares`), and new
  directories are on the way to headers (`Attempts.directories`). One attempt leaves a tree a tree
  (`isTree_of_generateOne`).
-/

namespace DsdlHeaders

/-- What a run that goes on says about a failure. -/
def Failure.warning (failure : Failure) : LogLine :=
  ⟨.warn, failure.message⟩

namespace Config

variable {config : Config} {folder : String} {template : Template.Compiled}

/-! ## The whole run -/

/-- The workspace of a run that has counted its definitions. -/
def counted (definitions : List Definition) (workspace : Workspace) : Workspace :=
  workspace.say .info (toString definitions.length ++ " types total")

/-- Counting changes no file. -/
@[simp] theorem counted_store (definitions : List Definition) (workspace : Workspace) :
    (counted definitions workspace).store = workspace.store := rfl

/-- A run that has something to do, knows where, and is no dry run. -/
theorem run_eq_generateBelow (config : Config) {definitions : List Definition}
    {workspace : Workspace}
    (hne : definitions ≠ []) (hvalid : Valid definitions) (hdry : config.dryRun = false)
    (hfolder : Path.absolute? workspace.store.currentPath config.output = some folder) :
    config.run definitions workspace =
      config.generateBelow folder definitions (counted definitions workspace) := by
  have hchecked := validate_eq_ok_iff.mpr hvalid
  unfold run
  rw [if_neg (by simpa using hne), hchecked]
  simp only [hfolder, hdry]
  rfl

/-- Listing the headers of a dry run changes no file and fails for no definition. -/
theorem dryRunAll_spec (definitions : List Definition) (workspace : Workspace) :
    (config.dryRunAll folder definitions workspace).1.failures = [] ∧
      (config.dryRunAll folder definitions workspace).2.store = workspace.store := by
  refine ⟨rfl, ?_⟩
  have hsaid : ∀ (entries : List Entry) (workspace : Workspace),
      (entries.foldl (fun workspace entry => workspace.say .info
        ("Would have generated type " ++ entry.fullName ++ " as " ++ entry.path))
        workspace).store = workspace.store := by
    intro entries
    induction entries with
    | nil => exact fun _ => rfl
    | cons entry entries ih => exact fun workspace => ih _
  exact hsaid _ _

/-- A template that cannot be had changes no file. -/
theorem template_eq_error {workspace after : Workspace} {path : String} {error : RunError}
    (h : workspace.template path = (.error error, after)) :
    after.store = workspace.store ∧ ∃ found, error = .template found := by
  unfold Workspace.template at h
  rcases hget : workspace.cache.get workspace.store path with ⟨found | cached, cache⟩
  · simp only [hget, Prod.mk.injEq, Except.error.injEq] at h
    obtain ⟨rfl, rfl⟩ := h
    refine ⟨?_, found, rfl⟩
    dsimp only
    split_ifs <;> rfl
  · exact absurd h (by simp [hget])

/-- Everything that a run can do: it ends because there is nothing to do, because the definitions
are not valid or because it does not know where to work, or it lists the headers of a dry run, or
it generates headers. -/
theorem run_cases {definitions : List Definition} {before after : Workspace}
    {result : Except RunError Summary} (h : config.run definitions before = (result, after)) :
    (result = .error .noTypes ∧ after.store = before.store) ∨
    (∃ error, result = .error (.model error) ∧ after.store = before.store) ∨
    (∃ fault, result = .error (.file fault) ∧ after.store = before.store) ∨
    (∃ summary, Valid definitions ∧ config.dryRun = true ∧ result = .ok summary ∧
      summary.failures = [] ∧ after.store = before.store) ∨
    (∃ folder, definitions ≠ [] ∧ Valid definitions ∧ config.dryRun = false ∧
      Path.absolute? before.store.currentPath config.output = some folder ∧
      config.generateBelow folder definitions (counted definitions before) = (result, after)) := by
  unfold run at h
  split at h
  · obtain ⟨rfl, rfl⟩ := Prod.mk.inj h
    exact .inl ⟨rfl, rfl⟩
  · rename_i hne
    split at h
    · rename_i error _
      obtain ⟨rfl, rfl⟩ := Prod.mk.inj h
      exact .inr (.inl ⟨error, rfl, rfl⟩)
    · rename_i hchecked
      have hvalid := validate_eq_ok_iff.mp hchecked
      simp only at h
      split at h
      · obtain ⟨rfl, rfl⟩ := Prod.mk.inj h
        exact .inr (.inr (.inl ⟨.emptyPath, rfl, rfl⟩))
      · rename_i folder hfolder
        split_ifs at h with hdry
        · obtain ⟨rfl, rfl⟩ := Prod.mk.inj h
          exact .inr (.inr (.inr (.inl ⟨_, hvalid, hdry, rfl, dryRunAll_spec _ _⟩)))
        · refine .inr (.inr (.inr (.inr ⟨folder, ?_, hvalid, ?_, hfolder, h⟩)))
          · simpa using hne
          · simpa using hdry

/-! ## Preparing -/

/-- The failure of a definition whose context cannot be built. -/
def contextFailure? (config : Config) (definition : Definition) : Option Failure :=
  match definition.context config.extension with
  | .ok _ => none
  | .error error => some ⟨definition.fullName, .context error⟩

/-- A definition with its context, if that can be built. -/
def prepared? (config : Config) (definition : Definition) : Option Prepared :=
  match definition.context config.extension with
  | .ok context => some (definition, context)
  | .error _ => none

/-- Whether a context can be built does not depend on the policy. -/
@[simp] theorem contextFailure?_policy (policy : Policy) :
    ({ config with policy } : Config).contextFailure? = config.contextFailure? := rfl

/-- What is prepared does not depend on the policy. -/
@[simp] theorem prepared?_policy (policy : Policy) :
    ({ config with policy } : Config).prepared? = config.prepared? := rfl

/-- The failures of contexts are failures of contexts. -/
theorem stage_of_mem_contextFailures {definitions : List Definition} {failure : Failure}
    (h : failure ∈ definitions.filterMap config.contextFailure?) :
    failure.cause.stage = .context := by
  obtain ⟨definition, -, hfailure⟩ := List.mem_filterMap.mp h
  unfold contextFailure? at hfailure
  split at hfailure
  · exact absurd hfailure (by simp)
  · obtain rfl := Option.some.inj hfailure
    rfl

/-- A run that goes on prepares what it can and records all failures, in order. -/
theorem prepare_of_proceed (hpolicy : config.policy = .proceed) (definitions : List Definition)
    (summary : Summary) (workspace : Workspace) :
    config.prepare definitions summary workspace =
      (.ok (definitions.filterMap config.prepared?,
        ⟨summary.entries, summary.failures ++ definitions.filterMap config.contextFailure?⟩),
      { workspace with log := workspace.log ++
          (definitions.filterMap config.contextFailure?).map Failure.warning }) := by
  induction definitions generalizing summary workspace with
  | nil => simp [prepare]
  | cons definition rest ih =>
    unfold prepare
    cases hcontext : definition.context config.extension with
    | ok context => simp [ih, contextFailure?, prepared?, hcontext]
    | error error =>
      simp [ih, contextFailure?, prepared?, hcontext, afterFailure, hpolicy, Summary.fail,
        Workspace.say, Failure.warning]

/-- A run that aborts prepares all definitions or ends with the first failure. -/
theorem prepare_of_abort (hpolicy : config.policy = .abort) (definitions : List Definition)
    (summary : Summary) (workspace : Workspace) :
    config.prepare definitions summary workspace =
      (match definitions.filterMap config.contextFailure? with
        | [] => .ok (definitions.filterMap config.prepared?, summary)
        | failure :: _ => .error (.failed failure), workspace) := by
  induction definitions generalizing summary workspace with
  | nil => rfl
  | cons definition rest ih =>
    unfold prepare
    cases hcontext : definition.context config.extension with
    | ok context =>
      simp only [ih, List.filterMap_cons, contextFailure?, prepared?, hcontext]
      cases rest.filterMap config.contextFailure? <;> rfl
    | error error => simp [contextFailure?, hcontext, afterFailure, hpolicy]

/-- Preparing fails only for a context, and then nothing has happened. -/
theorem prepare_eq_error {definitions : List Definition} {summary : Summary}
    {workspace after : Workspace} {error : RunError}
    (h : config.prepare definitions summary workspace = (.error error, after)) :
    after = workspace ∧ ∃ failure, error = .failed failure ∧ failure.cause.stage = .context := by
  cases hpolicy : config.policy with
  | proceed => exact absurd (Prod.mk.inj h).1 (by simp [prepare_of_proceed hpolicy])
  | abort =>
    rw [prepare_of_abort hpolicy] at h
    obtain ⟨hresult, rfl⟩ := Prod.mk.inj h
    refine ⟨rfl, ?_⟩
    split at hresult
    · exact absurd hresult (by simp)
    · rename_i failure rest hfailures
      refine ⟨failure, (Except.error.inj hresult).symm, ?_⟩
      exact stage_of_mem_contextFailures (hfailures ▸ List.mem_cons_self)

/-- A run that aborts has prepared all definitions, or none. -/
theorem map_fst_prepared {definitions : List Definition} {summary result : Summary}
    {prepared : List Prepared} {workspace after : Workspace} (hpolicy : config.policy = .abort)
    (h : config.prepare definitions summary workspace = (.ok (prepared, result), after)) :
    prepared.map Prod.fst = definitions := by
  obtain ⟨-, -, failures, hresult, hprepares⟩ := prepare_eq_ok h
  rw [prepare_of_abort hpolicy] at h
  have hsame : result = summary := by
    have hfirst := (Prod.mk.inj h).1
    split at hfirst
    · exact (Prod.mk.inj (Except.ok.inj hfirst)).2.symm
    · exact absurd hfirst (by simp)
  obtain rfl : failures = [] := by
    simpa [hsame] using congrArg Summary.failures hresult
  refine hprepares.ordered.eq_of_length ?_
  simpa using hprepares.once.length_eq

/-! ## Generating -/

/-- The workspace of a run that is about to generate a header. -/
def announced (definition : Definition) (workspace : Workspace) : Workspace :=
  workspace.say .info ("Generating type " ++ definition.fullName)

/-- Announcing a header changes no file. -/
@[simp] theorem announced_store (definition : Definition) (workspace : Workspace) :
    (announced definition workspace).store = workspace.store := rfl

/-- One attempt after another, with the entries and the failures that come of them. Whatever the
policy is, the next attempt starts where the last one ended. -/
inductive Attempts (config : Config) (folder : String) (template : Template.Compiled) :
    List Prepared → Workspace → List Entry → List Failure → Workspace → Prop
  | nil (workspace : Workspace) : Attempts config folder template [] workspace [] [] workspace
  | entry {definition : Definition} {context : Context} {rest : List Prepared}
      {before middle after : Workspace} {entries : List Entry} {failures : List Failure}
      {outcome : Outcome}
      (one : config.generateOne template context (config.headerPath folder definition)
        (announced definition before) = (.ok outcome, middle))
      (later : Attempts config folder template rest middle entries failures after) :
      Attempts config folder template ((definition, context) :: rest) before
        (⟨definition.fullName, config.headerPath folder definition, some outcome⟩ :: entries)
        failures after
  | failure {definition : Definition} {context : Context} {rest : List Prepared}
      {before middle after : Workspace} {entries : List Entry} {failures : List Failure}
      {cause : Cause}
      (one : config.generateOne template context (config.headerPath folder definition)
        (announced definition before) = (.error cause, middle))
      (later : Attempts config folder template rest
        (middle.say .warn (Failure.message ⟨definition.fullName, cause⟩)) entries failures after) :
      Attempts config folder template ((definition, context) :: rest) before entries
        (⟨definition.fullName, cause⟩ :: failures) after

variable {prepared : List Prepared} {before middle after : Workspace} {entries : List Entry}
  {failures : List Failure}

/-- Behind a run that generates its headers there are attempts. None of them fails if the run would
abort. -/
theorem attempts_of_generateAll {summary result : Summary}
    (h : config.generateAll folder template prepared summary before = (.ok result, after)) :
    ∃ entries failures, result = ⟨summary.entries ++ entries, summary.failures ++ failures⟩ ∧
      Attempts config folder template prepared before entries failures after ∧
      (config.policy = .abort → failures = []) := by
  induction prepared generalizing summary before with
  | nil =>
    obtain ⟨hresult, rfl⟩ := Prod.mk.inj h
    obtain rfl := Except.ok.inj hresult
    exact ⟨[], [], by simp, .nil _, fun _ => rfl⟩
  | cons item rest ih =>
    obtain ⟨definition, context⟩ := item
    simp only [generateAll] at h
    split at h
    · rename_i outcome middle hone
      obtain ⟨entries, failures, rfl, hattempts, hnone⟩ := ih h
      exact ⟨_ :: entries, failures, by simp [Summary.add], .entry hone hattempts, hnone⟩
    · rename_i cause middle hone
      cases hpolicy : config.policy with
      | abort => exact absurd (Prod.mk.inj h).1 (by simp [afterFailure, hpolicy])
      | proceed =>
        simp only [afterFailure, hpolicy] at h
        obtain ⟨entries, failures, rfl, hattempts, -⟩ := ih h
        exact ⟨entries, _ :: failures, by simp [Summary.fail], .failure hone hattempts, by simp⟩

/-- Behind a run that does not generate all headers there are attempts that do not fail, and one
more that does. -/
theorem attempts_of_error {summary : Summary} {error : RunError}
    (h : config.generateAll folder template prepared summary before = (.error error, after)) :
    config.policy = .abort ∧ ∃ done definition context rest entries middle cause,
      prepared = done ++ (definition, context) :: rest ∧
      Attempts config folder template done before entries [] middle ∧
      config.generateOne template context (config.headerPath folder definition)
        (announced definition middle) = (.error cause, after) ∧
      error = .failed ⟨definition.fullName, cause⟩ := by
  induction prepared generalizing summary before with
  | nil => exact absurd (Prod.mk.inj h).1 (by simp)
  | cons item rest ih =>
    obtain ⟨definition, context⟩ := item
    simp only [generateAll] at h
    split at h
    · rename_i outcome middle hone
      obtain ⟨hpolicy, done, definition', context', rest', entries, last, cause, rfl, hattempts,
        hlast, rfl⟩ := ih h
      exact ⟨hpolicy, _ :: done, definition', context', rest', _ :: entries, last, cause, rfl,
        .entry hone hattempts, hlast, rfl⟩
    · rename_i cause middle hone
      cases hpolicy : config.policy with
      | abort =>
        simp only [afterFailure, hpolicy] at h
        obtain ⟨herror, rfl⟩ := Prod.mk.inj h
        exact ⟨rfl, [], definition, context, rest, [], before, cause, rfl, .nil _, hone,
          (Except.error.inj herror).symm⟩
      | proceed =>
        simp only [afterFailure, hpolicy] at h
        obtain ⟨habort, -⟩ := ih h
        exact absurd (hpolicy.symm.trans habort) (by simp)

/-- Attempts make a run that goes on after failures, or that has none. -/
theorem generateAll_of_attempts
    (h : Attempts config folder template prepared before entries failures after)
    (hpolicy : config.policy = .proceed ∨ failures = []) (summary : Summary) :
    config.generateAll folder template prepared summary before =
      (.ok ⟨summary.entries ++ entries, summary.failures ++ failures⟩, after) := by
  induction h generalizing summary with
  | nil workspace => simp [generateAll]
  | entry one _ ih =>
    unfold announced at one
    simp [generateAll, one, ih hpolicy, Summary.add]
  | failure one _ ih =>
    unfold announced at one
    rcases hpolicy with hproceed | hnone
    · simp [generateAll, one, afterFailure, hproceed, ih (.inl hproceed), Summary.fail]
    · exact absurd hnone (by simp)

/-- A run that aborts ends with the first failure among its attempts. -/
theorem generateAll_of_failure {failure : Failure} {rest : List Failure}
    (h : Attempts config folder template prepared before entries failures after)
    (hfailures : failures = failure :: rest) (hpolicy : config.policy = .abort)
    (summary : Summary) : ∃ stopped,
      config.generateAll folder template prepared summary before =
        (.error (.failed failure), stopped) := by
  induction h generalizing summary with
  | nil workspace => exact absurd hfailures (by simp)
  | entry one _ ih =>
    unfold announced at one
    simp only [generateAll, one]
    exact ih hfailures _
  | @failure _ _ _ _ middle _ _ _ _ one _ _ =>
    unfold announced at one
    obtain ⟨rfl, -⟩ := List.cons.inj hfailures
    exact ⟨middle, by simp only [generateAll, one, afterFailure, hpolicy]⟩

/-- How an attempt fails: the template cannot be expanded, which changes nothing, or the header
cannot be written. -/
theorem generateOne_eq_error {context : Context} {path : String} {cause : Cause}
    (h : config.generateOne template context path before = (.error cause, after)) :
    (∃ error, template.expand context = .error error ∧ cause = .expand error ∧ after = before) ∨
      ∃ text fault, template.expand context = .ok text ∧ cause = .write fault ∧
        before.store.write config.readOnly path text = (.error fault, after.store) := by
  unfold generateOne at h
  split at h
  · rename_i error hexpand
    obtain ⟨hcause, rfl⟩ := Prod.mk.inj h
    exact .inl ⟨error, hexpand, (Except.error.inj hcause).symm, rfl⟩
  · rename_i text hexpand
    split at h
    · rename_i fault _ hwritten
      obtain ⟨hcause, rfl⟩ := Prod.mk.inj h
      exact .inr ⟨text, fault, hexpand, (Except.error.inj hcause).symm,
        Workspace.write_eq_error hwritten⟩
    · exact absurd (Prod.mk.inj h).1 (by simp)

/-- An attempt only fails when the template is expanded or the header is written. -/
theorem stage_of_generateOne {context : Context} {path : String} {cause : Cause}
    (h : config.generateOne template context path before = (.error cause, after)) :
    cause.stage ≠ .context := by
  rcases generateOne_eq_error h with ⟨error, -, rfl, -⟩ | ⟨text, fault, -, rfl, -⟩
  · simp [Cause.stage]
  · simp [Cause.stage]

/-- The policy of a run does not matter for a single attempt. -/
theorem generateOne_policy (policy : Policy) (context : Context) (path : String)
    (workspace : Workspace) :
    ({ config with policy } : Config).generateOne template context path workspace =
      config.generateOne template context path workspace := by
  unfold generateOne
  rfl

namespace Attempts

/-- The policy of a run does not matter for its attempts. -/
theorem of_policy (h : Attempts config folder template prepared before entries failures after)
    (policy : Policy) :
    Attempts { config with policy } folder template prepared before entries failures after := by
  induction h with
  | nil workspace => exact .nil workspace
  | entry one _ ih => exact .entry ((generateOne_policy policy _ _ _).trans one) ih
  | failure one _ ih => exact .failure ((generateOne_policy policy _ _ _).trans one) ih

/-- Attempts only fail when the template is expanded or the header is written. -/
theorem stage_ne_context
    (h : Attempts config folder template prepared before entries failures after) :
    ∀ failure ∈ failures, failure.cause.stage ≠ .context := by
  induction h with
  | nil workspace => simp
  | entry _ _ ih => exact ih
  | failure one _ ih =>
    intro failure hfailure
    rcases List.mem_cons.mp hfailure with rfl | hfailure
    · exact stage_of_generateOne one
    · exact ih failure hfailure

/-- Failures are in the order of the definitions. -/
theorem failures_ordered
    (h : Attempts config folder template prepared before entries failures after) :
    (failures.map Failure.fullName).Sublist (prepared.map (·.1.fullName)) := by
  induction h with
  | nil workspace => exact .slnil
  | entry _ _ ih => exact ih.cons _
  | failure _ _ ih => exact ih.cons_cons _

end Attempts

/-- The stages behind a run below a directory that ends well. -/
theorem generateBelow_eq_ok {definitions : List Definition} {summary : Summary}
    (h : config.generateBelow folder definitions before = (.ok summary, after)) :
    ∃ prepared early cached working,
      (∃ ready, config.prepare definitions Summary.empty before =
        (.ok (prepared, ⟨[], early⟩), ready)) ∧
      config.Prepares definitions prepared early ∧
      before.cache.get before.store config.template = (.ok cached, working.cache) ∧
      working.store = before.store ∧
      config.generateAll folder cached.template prepared ⟨[], early⟩ working =
        (.ok summary, after) := by
  unfold generateBelow at h
  split at h
  · exact absurd (Prod.mk.inj h).1 (by simp)
  · rename_i prepared recorded ready hprepare
    obtain ⟨hready, hcache, early, rfl, hprepares⟩ := prepare_eq_ok hprepare
    split at h
    · exact absurd (Prod.mk.inj h).1 (by simp)
    · rename_i template working htemplate
      obtain ⟨hworking, cached, hcached, rfl⟩ := Workspace.template_eq_ok htemplate
      rw [hready, hcache] at hcached
      exact ⟨prepared, early, cached, working, ⟨ready, hprepare⟩, hprepares, hcached,
        hworking.trans hready, h⟩

/-- A run below a directory that ends well delivers, with the template that it finds. -/
theorem delivers_of_generateBelow {definitions : List Definition} {summary : Summary}
    (hext : '/' ∉ config.extension.toList) (hvalid : Valid definitions)
    (h : config.generateBelow folder definitions before = (.ok summary, after)) :
    ∃ cached, (before.cache.get before.store config.template).1 = .ok cached ∧
      config.Delivers definitions before.store folder cached.template summary after.store := by
  obtain ⟨prepared, early, cached, working, -, hprepares, hcached, hworking, hgenerate⟩ :=
    generateBelow_eq_ok h
  obtain ⟨entries, late, rfl, hgenerates⟩ := generateAll_eq_ok hext (hprepares.names hvalid)
    (hprepares.distinct hvalid) hprepares.contexts hgenerate
  rw [hworking] at hgenerates
  exact ⟨cached, congrArg Prod.fst hcached,
    delivers_of_generates hvalid hext hprepares hgenerates⟩

/-! ## What attempts do to a store -/

/-- An attempt does to the store what a write does, or nothing. -/
theorem store_of_generateOne {context : Context} {path : String} {result : Except Cause Outcome}
    (h : config.generateOne template context path before = (result, after)) :
    after.store = before.store ∨
      ∃ text, after.store = (before.store.write config.readOnly path text).2 := by
  cases result with
  | ok outcome =>
    obtain ⟨text, -, hwritten⟩ := generateOne_eq_ok h
    exact .inr ⟨text, by rw [hwritten]⟩
  | error cause =>
    rcases generateOne_eq_error h with ⟨error, -, -, rfl⟩ | ⟨text, fault, -, -, hwritten⟩
    · exact .inl rfl
    · exact .inr ⟨text, by rw [hwritten]⟩

/-- An attempt removes nothing. -/
theorem retains_of_generateOne {context : Context} {path : String}
    {result : Except Cause Outcome}
    (h : config.generateOne template context path before = (result, after)) :
    Store.Retains before.store after.store := by
  rcases store_of_generateOne h with hstore | ⟨text, hstore⟩
  · exact hstore ▸ .refl _
  · exact hstore ▸ Store.write_retains _ _ _ _

/-- An attempt leaves a tree. -/
theorem isTree_of_generateOne {context : Context} {path : String}
    {result : Except Cause Outcome}
    (h : config.generateOne template context path before = (result, after))
    (htree : before.store.IsTree) : after.store.IsTree := by
  rcases store_of_generateOne h with hstore | ⟨text, hstore⟩
  · exact hstore ▸ htree
  · exact hstore ▸ htree.write _ _ _

/-- A place that the way to the directory of a header passes. -/
def IsOnWay (config : Config) (folder : String) (current : Place) (definition : Definition)
    (place : Place) : Prop :=
  ∃ front, front <+: Path.steps (Store.folderOf (config.headerPath folder definition)) ∧
    place = Path.destination current front

/-- Directories that an attempt made are on the way to the header. -/
theorem directories_of_generateOne {definition : Definition} {context : Context}
    {result : Except Cause Outcome}
    (h : config.generateOne template context (config.headerPath folder definition) before =
      (result, after)) (place : Place) (hplace : after.store.node? place = some .directory) :
    before.store.node? place = some .directory ∨
      config.IsOnWay folder before.store.current definition place := by
  rcases store_of_generateOne h with hstore | ⟨text, hstore⟩
  · exact .inl (hstore ▸ hplace)
  · exact Store.node?_of_write (hstore ▸ hplace)

/-- An attempt touches no file but that of the header. -/
theorem spares_of_generateOne {definition : Definition} {context : Context}
    {result : Except Cause Outcome}
    (h : config.generateOne template context (config.headerPath folder definition) before =
      (result, after)) :
    Store.SparesOutside {config.headerPlace folder before.store.current definition} before.store
      after.store := by
  cases result with
  | ok outcome =>
    obtain ⟨text, -, hwritten⟩ := generateOne_eq_ok h
    obtain ⟨place, mode, hlocate, -, hspares⟩ := Store.write_ok_spares hwritten
    have hplace : place = config.headerPlace folder before.store.current definition := by
      rw [headerPlace, ← hspares.current]
      exact Store.locate_eq_ok hlocate
    exact hplace ▸ hspares
  | error cause => exact (generateOne_error_spares h).mono (Set.empty_subset _)

namespace Attempts

/-- Attempts remove nothing. -/
theorem retains (h : Attempts config folder template prepared before entries failures after) :
    Store.Retains before.store after.store := by
  induction h with
  | nil workspace => exact .refl _
  | entry one _ ih => exact (retains_of_generateOne one).trans ih
  | failure one _ ih => exact (retains_of_generateOne one).trans ih

/-- One more attempt in front touches one more file. -/
theorem spares_cons {item : Prepared} {start middle final : Store}
    (hone : Store.SparesOutside {config.headerPlace folder start.current item.1} start middle)
    (hlater : Store.SparesOutside {place | ∃ item ∈ prepared,
      place = config.headerPlace folder middle.current item.1} middle final) :
    Store.SparesOutside {place | ∃ other ∈ item :: prepared,
      place = config.headerPlace folder start.current other.1} start final := by
  rw [hone.current] at hlater
  refine (hone.mono ?_).trans (hlater.mono ?_)
  · intro place hplace
    exact ⟨item, by simp, Set.mem_singleton_iff.mp hplace⟩
  · rintro place ⟨other, hother, hplace⟩
    exact ⟨other, by simp [hother], hplace⟩

/-- Attempts touch no files but those of the headers. -/
theorem spares (h : Attempts config folder template prepared before entries failures after) :
    Store.SparesOutside {place | ∃ item ∈ prepared,
      place = config.headerPlace folder before.store.current item.1} before.store after.store := by
  induction h with
  | nil workspace => exact .refl _ _
  | entry one _ ih =>
    have hone := spares_of_generateOne one
    exact spares_cons hone ih
  | failure one _ ih =>
    have hone := spares_of_generateOne one
    exact spares_cons hone ih

/-- One more attempt in front makes directories on one more way. -/
theorem directories_cons {item : Prepared} {start middle final : Store}
    (hcurrent : middle.current = start.current)
    (hone : ∀ place, middle.node? place = some .directory → start.node? place = some .directory ∨
      config.IsOnWay folder start.current item.1 place)
    (hlater : ∀ place, final.node? place = some .directory →
      middle.node? place = some .directory ∨
        ∃ item ∈ prepared, config.IsOnWay folder middle.current item.1 place) :
    ∀ place, final.node? place = some .directory → start.node? place = some .directory ∨
      ∃ other ∈ item :: prepared, config.IsOnWay folder start.current other.1 place := by
  rw [hcurrent] at hlater
  intro place hplace
  rcases hlater place hplace with hmiddle | ⟨other, hother, hway⟩
  · rcases hone place hmiddle with hstart | hway
    · exact .inl hstart
    · exact .inr ⟨item, by simp, hway⟩
  · exact .inr ⟨other, by simp [hother], hway⟩

/-- Directories that attempts made are on the way to headers. -/
theorem directories (h : Attempts config folder template prepared before entries failures after) :
    ∀ place, after.store.node? place = some .directory →
      before.store.node? place = some .directory ∨
        ∃ item ∈ prepared, config.IsOnWay folder before.store.current item.1 place := by
  induction h with
  | nil workspace => exact fun _ hplace => .inl hplace
  | entry one _ ih =>
    have hone := directories_of_generateOne one
    exact directories_cons (retains_of_generateOne one).current hone ih
  | failure one _ ih =>
    have hone := directories_of_generateOne one
    exact directories_cons (retains_of_generateOne one).current hone ih

end Attempts

/-- A store with a file where the sample run needs a directory, and a cached template. -/
def clashingWorkspace : Workspace where
  store := ⟨[(["out"], .directory), (["out", "a"], .file "k".toUTF8 0o644)], []⟩
  cache := ⟨[⟨0, ⟨"t", [.text "x "]⟩⟩], 1⟩
  log := []

end Config

end DsdlHeaders
