import Mathlib.Data.List.Nodup
import Mathlib.Data.List.Perm.Basic
import DsdlHeaders.Generation.Run
import DsdlHeaders.Proofs.Header.Location
import DsdlHeaders.Proofs.Model.Validation
import DsdlHeaders.Proofs.Store.Frame

/-!
# What a run delivers

A run that returns a summary has dealt with every definition once, and the files are what the
summary says they are (`Config.run_delivers`).

The argument follows the two loops of a run.

* **Preparing** touches neither store nor cache. Each definition is prepared or fails
  (`Prepares`, `prepare_eq_ok`).
* **Generating** touches one file for each entry. The invariant `Generates` says of a run over some
  prepared definitions where the headers are in the store *after it*. Its step lemmas put one more
  definition in front: `Generates.header` for a header that was written, `Generates.failure` for
  one that was not. A header stays what it is because the places of all later headers differ from
  its own.

Templates are arbitrary here: nothing depends on what an expansion yields.
-/

namespace DsdlHeaders

/-! ## Lists side by side -/

/-- Every item on the left has its counterpart on the right. -/
theorem exists_right_of_forall₂ {α β : Type} {R : α → β → Prop} {items : List α}
    {others : List β} (h : List.Forall₂ R items others) :
    ∀ item ∈ items, ∃ other ∈ others, R item other := by
  induction h with
  | nil => simp
  | @cons first found _ _ hfirst _ ih =>
    intro item hitem
    rcases List.mem_cons.mp hitem with rfl | hitem
    · exact ⟨found, by simp, hfirst⟩
    · obtain ⟨other, hother, hitem⟩ := ih item hitem
      exact ⟨other, by simp [hother], hitem⟩

/-- Every item on the right has its counterpart on the left. -/
theorem exists_left_of_forall₂ {α β : Type} {R : α → β → Prop} {items : List α}
    {others : List β} (h : List.Forall₂ R items others) :
    ∀ other ∈ others, ∃ item ∈ items, R item other :=
  exists_right_of_forall₂ (List.Forall₂.flip (R := flip R) h)

/-! ## Steps of a run -/

namespace Workspace

/-- Saying something changes no file. -/
@[simp] theorem say_store (workspace : Workspace) (level : Level) (message : String) :
    (workspace.say level message).store = workspace.store := rfl

/-- Saying something changes no template. -/
@[simp] theorem say_cache (workspace : Workspace) (level : Level) (message : String) :
    (workspace.say level message).cache = workspace.cache := rfl

/-- A header that was written was written to the store. -/
theorem write_eq_ok {workspace after : Workspace} {readOnly : Bool} {path text : String}
    {outcome : Outcome} (h : workspace.write readOnly path text = (.ok outcome, after)) :
    workspace.store.write readOnly path text = (.ok outcome, after.store) := by
  rcases hwritten : workspace.store.write readOnly path text with ⟨_ | found, store⟩
  · simp [write, hwritten] at h
  · simp only [write, hwritten, Prod.mk.injEq, Except.ok.injEq] at h
    obtain ⟨rfl, rfl⟩ := h
    rfl

/-- A header that was not written was not written to the store. -/
theorem write_eq_error {workspace after : Workspace} {readOnly : Bool} {path text : String}
    {fault : WriteFault} (h : workspace.write readOnly path text = (.error fault, after)) :
    workspace.store.write readOnly path text = (.error fault, after.store) := by
  rcases hwritten : workspace.store.write readOnly path text with ⟨found | _, store⟩
  · simp only [write, hwritten, Prod.mk.injEq, Except.error.injEq] at h
    obtain ⟨rfl, rfl⟩ := h
    rfl
  · simp [write, hwritten] at h

/-- Looking up a template changes no file, and the template is the one that the cache gives. -/
theorem template_eq_ok {workspace after : Workspace} {path : String}
    {template : Template.Compiled} (h : workspace.template path = (.ok template, after)) :
    after.store = workspace.store ∧ ∃ cached,
      workspace.cache.get workspace.store path = (.ok cached, after.cache) ∧
        cached.template = template := by
  unfold Workspace.template at h
  rcases hget : workspace.cache.get workspace.store path with ⟨_ | cached, cache⟩
  · simp [hget] at h
  · simp only [hget, Prod.mk.injEq, Except.ok.injEq] at h
    obtain ⟨rfl, rfl⟩ := h
    refine ⟨?_, cached, rfl, rfl⟩
    dsimp only
    split_ifs <;> rfl

end Workspace

namespace Config

variable {config : Config} {folder : String} {template : Template.Compiled}

/-- A run that goes on after a failure has recorded it and touched nothing. -/
theorem afterFailure_eq_ok {failure : Failure} {summary result : Summary}
    {workspace after : Workspace}
    (h : config.afterFailure failure summary workspace = (.ok result, after)) :
    result = summary.fail failure ∧ after.store = workspace.store ∧
      after.cache = workspace.cache := by
  unfold afterFailure at h
  split at h
  · simp at h
  · obtain ⟨hresult, rfl⟩ := Prod.mk.inj h
    exact ⟨(Except.ok.inj hresult).symm, rfl, rfl⟩

/-- A generated header is the expanded template, written to its path. -/
theorem generateOne_eq_ok {context : Context} {path : String} {workspace after : Workspace}
    {outcome : Outcome}
    (h : config.generateOne template context path workspace = (.ok outcome, after)) :
    ∃ text, template.expand context = .ok text ∧
      workspace.store.write config.readOnly path text = (.ok outcome, after.store) := by
  unfold generateOne at h
  split at h
  · simp at h
  · rename_i text htext
    refine ⟨text, htext, ?_⟩
    split at h
    · simp at h
    · rename_i hwritten
      obtain ⟨houtcome, rfl⟩ := Prod.mk.inj h
      obtain rfl := Except.ok.inj houtcome
      exact Workspace.write_eq_ok hwritten

/-- A header that could not be generated left all files alone. -/
theorem generateOne_error_spares {context : Context} {path : String}
    {workspace after : Workspace} {cause : Cause}
    (h : config.generateOne template context path workspace = (.error cause, after)) :
    Store.SparesOutside ∅ workspace.store after.store := by
  unfold generateOne at h
  split at h
  · obtain ⟨-, rfl⟩ := Prod.mk.inj h
    exact .refl _ _
  · split at h
    · rename_i hwritten
      obtain ⟨-, rfl⟩ := Prod.mk.inj h
      exact Store.write_error_spares (Workspace.write_eq_error hwritten)
    · simp at h

/-! ## Preparing -/

/-- What preparing definitions amounts to: each of them is prepared or fails. -/
structure Prepares (config : Config) (definitions : List Definition) (prepared : List Prepared)
    (failures : List Failure) : Prop where
  contexts : ∀ item ∈ prepared, item.1.context config.extension = .ok item.2
  ordered : (prepared.map Prod.fst).Sublist definitions
  once : (prepared.map (·.1.fullName) ++ failures.map Failure.fullName).Perm
    (definitions.map Definition.fullName)

namespace Prepares

variable {definitions : List Definition} {prepared : List Prepared} {failures : List Failure}

/-- What is prepared from valid definitions has proper full names. -/
theorem names (h : config.Prepares definitions prepared failures) (hvalid : Valid definitions) :
    ∀ item ∈ prepared, isFullName item.1.fullName = true := by
  intro item hitem
  exact (hvalid.each item.1 (h.ordered.subset (List.mem_map_of_mem hitem))).name

/-- What is prepared from valid definitions has distinct full names. -/
theorem distinct (h : config.Prepares definitions prepared failures) (hvalid : Valid definitions) :
    (prepared.map (·.1.fullName)).Nodup := by
  have hsub := hvalid.distinct.sublist (h.ordered.map Definition.fullName)
  simpa [List.map_map, Function.comp_def] using hsub

end Prepares

/-- What preparing definitions does. -/
theorem prepare_eq_ok {definitions : List Definition} {summary result : Summary}
    {prepared : List Prepared} {workspace after : Workspace}
    (h : config.prepare definitions summary workspace = (.ok (prepared, result), after)) :
    after.store = workspace.store ∧ after.cache = workspace.cache ∧ ∃ failures,
      result = ⟨summary.entries, summary.failures ++ failures⟩ ∧
        config.Prepares definitions prepared failures := by
  induction definitions generalizing summary workspace prepared with
  | nil =>
    simp only [prepare, Prod.mk.injEq, Except.ok.injEq] at h
    obtain ⟨⟨rfl, rfl⟩, rfl⟩ := h
    exact ⟨rfl, rfl, [], by simp, by simp, by simp, by simp⟩
  | cons definition definitions ih =>
    simp only [prepare] at h
    split at h
    · rename_i context hcontext
      split at h
      · simp at h
      · rename_i others summary' workspace' hrest
        simp only [Prod.mk.injEq, Except.ok.injEq] at h
        obtain ⟨⟨rfl, rfl⟩, rfl⟩ := h
        obtain ⟨hstore, hcache, failures, hresult, hprepares⟩ := ih hrest
        refine ⟨hstore, hcache, failures, hresult, ?_, ?_, ?_⟩
        · simpa [hcontext] using hprepares.contexts
        · simpa using hprepares.ordered.cons_cons definition
        · simpa using hprepares.once.cons definition.fullName
    · rename_i error _
      split at h
      · simp at h
      · rename_i hfailure
        obtain ⟨rfl, hstore, hcache⟩ := afterFailure_eq_ok hfailure
        obtain ⟨hstore', hcache', failures, hresult, hprepares⟩ := ih h
        refine ⟨hstore'.trans hstore, hcache'.trans hcache,
          ⟨definition.fullName, .context error⟩ :: failures, ?_, hprepares.contexts, ?_, ?_⟩
        · simp [hresult, Summary.fail]
        · exact hprepares.ordered.cons definition
        · simp only [List.map_cons]
          exact List.perm_middle.trans (hprepares.once.cons definition.fullName)

/-! ## Generating -/

/-- The place that the header of a definition goes to. -/
def headerPlace (config : Config) (folder : String) (current : Place) (definition : Definition) :
    Place :=
  Path.destination current (Path.steps (config.headerPath folder definition))

/-- Headers of definitions with different full names have different places. -/
theorem headerPlace_injective {current : Place} {first second : Definition}
    (hfirst : isFullName first.fullName = true) (hsecond : isFullName second.fullName = true)
    (hext : '/' ∉ config.extension.toList)
    (h : config.headerPlace folder current first = config.headerPlace folder current second) :
    first.fullName = second.fullName := by
  unfold headerPlace headerPath at h
  rw [Definition.destination_push_outputPath hfirst hext,
    Definition.destination_push_outputPath hsecond hext] at h
  exact Definition.headerNames_injective (List.append_cancel_left h)

/-- Headers at one path have one full name. -/
theorem headerPath_injective {first second : Definition}
    (hfirst : isFullName first.fullName = true) (hsecond : isFullName second.fullName = true)
    (hext : '/' ∉ config.extension.toList)
    (h : config.headerPath folder first = config.headerPath folder second) :
    first.fullName = second.fullName := by
  have hplace : config.headerPlace folder [] first = config.headerPlace folder [] second := by
    rw [headerPlace, headerPlace, h]
  exact headerPlace_injective hfirst hsecond hext hplace

/-- An entry stands for a definition whose header is in a store. -/
structure IsHeader (config : Config) (folder : String) (template : Template.Compiled)
    (store : Store) (definition : Definition) (entry : Entry) : Prop where
  fullName : entry.fullName = definition.fullName
  path : entry.path = config.headerPath folder definition
  content : ∃ context text, definition.context config.extension = .ok context ∧
    template.expand context = .ok text ∧ store.read entry.path = .ok (normalize text).toUTF8

/-- A header in a place that is not touched stays. -/
theorem IsHeader.of_spares {before after : Store} {touched : Set Place} {definition : Definition}
    {entry : Entry} (h : config.IsHeader folder template before definition entry)
    (hspares : Store.SparesOutside touched before after)
    (hplace : config.headerPlace folder before.current definition ∉ touched) :
    config.IsHeader folder template after definition entry := by
  obtain ⟨hname, hpath, context, text, hcontext, htext, hread⟩ := h
  refine ⟨hname, hpath, context, text, hcontext, htext, ?_⟩
  obtain ⟨place, mode, hlocate, hnode⟩ := Store.read_eq_ok hread
  have hwhere : place = config.headerPlace folder before.current definition := by
    rw [headerPlace, ← hpath]
    exact Store.locate_eq_ok hlocate
  rw [← hwhere] at hplace
  exact Store.read_of_node? (hspares.locate hlocate) ((hspares.files _ hplace _ _).mpr hnode)

/-- What generating the headers of definitions amounts to: some of them, in order, have entries and
their headers are in the store after it, the others fail, and no other file was touched. -/
structure Generates (config : Config) (folder : String) (template : Template.Compiled)
    (definitions : List Definition) (before : Store) (entries : List Entry)
    (failures : List Failure) (after : Store) : Prop where
  headers : ∃ generated : List Definition, generated.Sublist definitions ∧
    List.Forall₂ (config.IsHeader folder template after) generated entries ∧
    (generated.map Definition.fullName ++ failures.map Failure.fullName).Perm
      (definitions.map Definition.fullName) ∧
    Store.SparesOutside {place | ∃ definition ∈ generated,
      place = config.headerPlace folder before.current definition} before after

namespace Generates

variable {definition : Definition} {definitions : List Definition}
  {before middle after : Store} {entries : List Entry} {failures : List Failure}

/-- Nothing to do. -/
theorem nil (store : Store) : config.Generates folder template [] store [] [] store :=
  ⟨[], .slnil, .nil, .nil, .refl _ _⟩

/-- One more definition in front whose header was written. -/
theorem header {entry : Entry}
    (hheader : config.IsHeader folder template middle definition entry)
    (hspares : Store.SparesOutside {config.headerPlace folder before.current definition}
      before middle)
    (hdistinct : ∀ other ∈ definitions, config.headerPlace folder before.current definition ≠
      config.headerPlace folder before.current other)
    (hrest : config.Generates folder template definitions middle entries failures after) :
    config.Generates folder template (definition :: definitions) before (entry :: entries)
      failures after := by
  obtain ⟨generated, hsub, hheaders, honce, hlater⟩ := hrest.headers
  rw [hspares.current] at hlater
  refine ⟨definition :: generated, hsub.cons_cons definition, ?_, ?_, ?_⟩
  · refine .cons (hheader.of_spares hlater ?_) hheaders
    rintro ⟨other, hother, hsame⟩
    rw [hspares.current] at hsame
    exact hdistinct other (hsub.subset hother) hsame
  · simpa using honce.cons definition.fullName
  · refine (hspares.mono ?_).trans (hlater.mono ?_)
    · intro place hplace
      exact ⟨definition, by simp, Set.mem_singleton_iff.mp hplace⟩
    · rintro place ⟨other, hother, hplace⟩
      exact ⟨other, by simp [hother], hplace⟩

/-- One more definition in front that failed. -/
theorem failure {failed : Failure} (hname : failed.fullName = definition.fullName)
    (hspares : Store.SparesOutside ∅ before middle)
    (hrest : config.Generates folder template definitions middle entries failures after) :
    config.Generates folder template (definition :: definitions) before entries
      (failed :: failures) after := by
  obtain ⟨generated, hsub, hheaders, honce, hlater⟩ := hrest.headers
  rw [hspares.current] at hlater
  refine ⟨generated, hsub.cons definition, hheaders, ?_, ?_⟩
  · simp only [List.map_cons, hname]
    exact List.perm_middle.trans (honce.cons definition.fullName)
  · exact (hspares.mono (Set.empty_subset _)).trans hlater

end Generates

/-- A header that was just generated is in the store, and only its own place was touched. -/
theorem isHeader_of_generateOne {definition : Definition} {context : Context}
    {workspace after : Workspace} {outcome : Outcome}
    (hcontext : definition.context config.extension = .ok context)
    (h : config.generateOne template context (config.headerPath folder definition) workspace =
      (.ok outcome, after)) :
    config.IsHeader folder template after.store definition
        ⟨definition.fullName, config.headerPath folder definition, some outcome⟩ ∧
      Store.SparesOutside {config.headerPlace folder workspace.store.current definition}
        workspace.store after.store := by
  obtain ⟨text, htext, hwritten⟩ := generateOne_eq_ok h
  obtain ⟨place, mode, hlocate, hnode, hspares⟩ := Store.write_ok_spares hwritten
  have hplace : place = config.headerPlace folder workspace.store.current definition := by
    rw [headerPlace, ← hspares.current]
    exact Store.locate_eq_ok hlocate
  rw [hplace] at hspares
  refine ⟨⟨rfl, ?_, context, text, hcontext, htext, ?_⟩, hspares⟩
  · dsimp only
  · dsimp only
    exact Store.read_of_node? hlocate hnode

/-- What generating headers does. -/
theorem generateAll_eq_ok {prepared : List Prepared} {summary result : Summary}
    {workspace after : Workspace} (hext : '/' ∉ config.extension.toList)
    (hnames : ∀ item ∈ prepared, isFullName item.1.fullName = true)
    (hdistinct : (prepared.map (·.1.fullName)).Nodup)
    (hcontexts : ∀ item ∈ prepared, item.1.context config.extension = .ok item.2)
    (h : config.generateAll folder template prepared summary workspace = (.ok result, after)) :
    ∃ entries failures,
      result = ⟨summary.entries ++ entries, summary.failures ++ failures⟩ ∧
      config.Generates folder template (prepared.map Prod.fst) workspace.store entries failures
        after.store := by
  induction prepared generalizing summary workspace with
  | nil =>
    simp only [generateAll, Prod.mk.injEq, Except.ok.injEq] at h
    obtain ⟨rfl, rfl⟩ := h
    exact ⟨[], [], by simp, .nil _⟩
  | cons item rest ih =>
    obtain ⟨definition, context⟩ := item
    rw [List.map_cons, List.nodup_cons] at hdistinct
    have hnames' : ∀ item ∈ rest, isFullName item.1.fullName = true :=
      fun item hitem => hnames item (by simp [hitem])
    have hcontexts' : ∀ item ∈ rest, item.1.context config.extension = .ok item.2 :=
      fun item hitem => hcontexts item (by simp [hitem])
    simp only [generateAll] at h
    split at h
    · rename_i outcome workspace' hone
      obtain ⟨entries, failures, hresult, hgenerates⟩ := ih hnames' hdistinct.2 hcontexts' h
      have hcontext : definition.context config.extension = .ok context :=
        hcontexts (definition, context) (by simp)
      obtain ⟨hheader, hspares⟩ := isHeader_of_generateOne hcontext hone
      refine ⟨_ :: entries, failures, ?_, .header hheader hspares ?_ hgenerates⟩
      · simp [hresult, Summary.add]
      · intro other hother hsame
        obtain ⟨item, hitem, rfl⟩ := List.mem_map.mp hother
        have hname := headerPlace_injective (hnames (definition, context) (by simp))
          (hnames' item hitem) hext hsame
        exact hdistinct.1 (hname ▸ List.mem_map.mpr ⟨item, hitem, rfl⟩)
    · rename_i cause workspace' hone
      have hspares := generateOne_error_spares hone
      split at h
      · simp at h
      · rename_i hfailure
        obtain ⟨rfl, hstore, -⟩ := afterFailure_eq_ok hfailure
        obtain ⟨entries, failures, hresult, hgenerates⟩ := ih hnames' hdistinct.2 hcontexts' h
        rw [hstore] at hgenerates
        refine ⟨entries, ⟨definition.fullName, cause⟩ :: failures, ?_,
          .failure rfl hspares hgenerates⟩
        simp [hresult, Summary.fail]

/-! ## The whole run -/

/-- What a run below a directory delivers: every definition is dealt with once, the entries are in
order, each entry's file is the header of its own definition, and all other files are as before. -/
structure Delivers (config : Config) (definitions : List Definition) (before : Store)
    (folder : String) (template : Template.Compiled) (summary : Summary) (after : Store) :
    Prop where
  total : summary.entries.length + summary.failures.length = definitions.length
  once : (summary.entries.map Entry.fullName ++ summary.failures.map Failure.fullName).Perm
    (definitions.map Definition.fullName)
  distinct : (definitions.map Definition.fullName).Nodup
  ordered : (summary.entries.map Entry.fullName).Sublist (definitions.map Definition.fullName)
  paths : summary.paths.Nodup
  headers : ∀ entry ∈ summary.entries, ∃ definition ∈ definitions,
    entry.fullName = definition.fullName ∧
    entry.path = Path.push folder
      (String.intercalate "/" (definition.spaces ++ [definition.fileName config.extension])) ∧
    ∃ context text, definition.context config.extension = .ok context ∧
      template.expand context = .ok text ∧ after.read entry.path = .ok (normalize text).toUTF8
  others : ∀ place,
    (∀ entry ∈ summary.entries, after.locate entry.path ≠ .ok (.entry place false)) →
    ∀ bytes mode,
      after.node? place = some (.file bytes mode) ↔ before.node? place = some (.file bytes mode)

/-- Entries of definitions have the names of the definitions. -/
theorem map_fullName_of_headers {store : Store} {generated : List Definition}
    {entries : List Entry}
    (h : List.Forall₂ (config.IsHeader folder template store) generated entries) :
    entries.map Entry.fullName = generated.map Definition.fullName := by
  induction h with
  | nil => rfl
  | cons hheader _ ih => rw [List.map_cons, List.map_cons, hheader.fullName, ih]

/-- Entries of definitions have the paths of the definitions' headers. -/
theorem map_path_of_headers {store : Store} {generated : List Definition} {entries : List Entry}
    (h : List.Forall₂ (config.IsHeader folder template store) generated entries) :
    entries.map Entry.path = generated.map (config.headerPath folder) := by
  induction h with
  | nil => rfl
  | cons hheader _ ih => rw [List.map_cons, List.map_cons, hheader.path, ih]

/-- Preparing valid definitions and generating their headers delivers. -/
theorem delivers_of_generates {definitions : List Definition} {prepared : List Prepared}
    {before after : Store} {entries : List Entry} {early late : List Failure}
    (hvalid : Valid definitions) (hext : '/' ∉ config.extension.toList)
    (hprepares : config.Prepares definitions prepared early)
    (hgenerates : config.Generates folder template (prepared.map Prod.fst) before entries late
      after) :
    config.Delivers definitions before folder template ⟨entries, early ++ late⟩ after := by
  obtain ⟨generated, hsub, hheaders, honce, hspares⟩ := hgenerates.headers
  have hfrom : generated.Sublist definitions := hsub.trans hprepares.ordered
  have hnames := map_fullName_of_headers hheaders
  have hperm : (entries.map Entry.fullName ++ (early ++ late).map Failure.fullName).Perm
      (definitions.map Definition.fullName) := by
    have hmoved : (generated.map Definition.fullName ++
        (early.map Failure.fullName ++ late.map Failure.fullName)).Perm
        (generated.map Definition.fullName ++ late.map Failure.fullName ++
          early.map Failure.fullName) := by
      rw [List.append_assoc]
      exact List.perm_append_comm.append_left _
    have hstage : (generated.map Definition.fullName ++ late.map Failure.fullName).Perm
        (prepared.map (·.1.fullName)) := by
      simpa [List.map_map, Function.comp_def] using honce
    rw [hnames, List.map_append]
    exact hmoved.trans ((hstage.append_right _).trans hprepares.once)
  have hproper : ∀ definition ∈ generated, isFullName definition.fullName = true :=
    fun definition hmem => (hvalid.each definition (hfrom.subset hmem)).name
  have hdistinct : (generated.map Definition.fullName).Nodup :=
    hvalid.distinct.sublist (hfrom.map _)
  refine ⟨?_, hperm, hvalid.distinct, ?_, ?_, ?_, ?_⟩
  · simpa using hperm.length_eq
  · rw [hnames]
    exact hfrom.map _
  · rw [Summary.paths, map_path_of_headers hheaders]
    refine hdistinct.of_map.map_on fun first hfirst second hsecond hsame => ?_
    exact List.inj_on_of_nodup_map hdistinct hfirst hsecond
      (headerPath_injective (hproper first hfirst) (hproper second hsecond) hext hsame)
  · intro entry hentry
    obtain ⟨definition, hmem, hheader⟩ := exists_left_of_forall₂ hheaders entry hentry
    refine ⟨definition, hfrom.subset hmem, hheader.fullName, ?_, hheader.content⟩
    rw [hheader.path, headerPath, Definition.outputPath_eq _ (hproper definition hmem)]
    rfl
  · intro place hplace
    refine hspares.files place ?_
    rintro ⟨definition, hmem, hsame⟩
    obtain ⟨entry, hentry, hheader⟩ := exists_right_of_forall₂ hheaders definition hmem
    obtain ⟨context, text, -, -, hread⟩ := hheader.content
    obtain ⟨target, mode, hlocate, -⟩ := Store.read_eq_ok hread
    have hwhere := Store.locate_eq_ok hlocate
    rw [hspares.current, hheader.path] at hwhere
    rw [hwhere] at hlocate
    exact hplace entry hentry (hlocate.trans (by rw [hsame, headerPlace]))

/-- **What a run delivers.** A run that is no dry run and returns a summary has dealt with every
definition once; in the store after it each entry's file holds the normal form of the template
expanded for the entry's own definition, and no other file has changed. -/
theorem run_delivers {definitions : List Definition} {before after : Workspace}
    {summary : Summary} (hdry : config.dryRun = false) (hext : '/' ∉ config.extension.toList)
    (h : config.run definitions before = (.ok summary, after)) :
    ∃ folder cached, Path.absolute? before.store.currentPath config.output = some folder ∧
      (before.cache.get before.store config.template).1 = .ok cached ∧
      config.Delivers definitions before.store folder cached.template summary after.store := by
  unfold run at h
  split at h
  · simp at h
  split at h
  · simp at h
  · rename_i hchecked
    have hvalid := validate_eq_ok_iff.mp hchecked
    simp only at h
    split at h
    · simp at h
    · rename_i folder hfolder
      rw [hdry, if_neg (by simp)] at h
      unfold generateBelow at h
      split at h
      · simp at h
      · rename_i prepared early prepareds hprepare
        obtain ⟨hstore, hcache, failures, hearly, hprepares⟩ := prepare_eq_ok hprepare
        split at h
        · simp at h
        · rename_i template found htemplate
          obtain ⟨hfound, cached, hcached, rfl⟩ := Workspace.template_eq_ok htemplate
          have hproper : ∀ item ∈ prepared, isFullName item.1.fullName = true :=
            fun item hitem => (hvalid.each item.1
              (hprepares.ordered.subset (List.mem_map.mpr ⟨item, hitem, rfl⟩))).name
          have hnodup : (prepared.map (·.1.fullName)).Nodup := by
            have := hvalid.distinct.sublist (hprepares.ordered.map Definition.fullName)
            simpa [List.map_map, Function.comp_def] using this
          obtain ⟨entries, late, hresult, hgenerates⟩ :=
            generateAll_eq_ok hext hproper hnodup hprepares.contexts h
          rw [hfound, hstore] at hgenerates
          rw [hstore, hcache] at hcached
          refine ⟨folder, cached, hfolder, by simpa using congrArg Prod.fst hcached, ?_⟩
          have hdelivers := delivers_of_generates hvalid hext hprepares hgenerates
          simpa [hresult, hearly, Summary.empty] using hdelivers

/-- A message, a message with an unusable constant, and a service. -/
def sampleDefinitions : List Definition :=
  [.message "a.B" none (.empty false),
    .message "a.C" none (.mk [] [⟨"K", ⟨.unsigned, 8, .saturated⟩, "x"⟩] false),
    .service "D" none (.empty false) (.empty false)]

/-- A run that goes on after failures. -/
def sampleConfig : Config :=
  { output := "out", template := "t", policy := .proceed }

/-- A store with another file in the output directory, and a cached template. -/
def sampleWorkspace : Workspace where
  store := ⟨[(["out"], .directory), (["out", "k"], .file "k".toUTF8 0o644)], []⟩
  cache := ⟨[⟨0, ⟨"t", [.text "x "]⟩⟩], 1⟩
  log := []

/-- The sample run writes two headers and reports the unusable constant. -/
theorem run_delivers_sample : ∃ summary after,
    sampleConfig.run sampleDefinitions sampleWorkspace = (.ok summary, after) ∧
    summary.paths = ["/out/a/B.hpp", "/out/D.hpp"] ∧
    summary.failures.map Failure.fullName = ["a.C"] ∧
    ∃ folder cached,
      Path.absolute? sampleWorkspace.store.currentPath sampleConfig.output = some folder ∧
      (sampleWorkspace.cache.get sampleWorkspace.store sampleConfig.template).1 = .ok cached ∧
      sampleConfig.Delivers sampleDefinitions sampleWorkspace.store folder cached.template summary
        after.store := by
  have hreport : ((sampleConfig.run sampleDefinitions sampleWorkspace).1.toOption.map
      fun summary => (summary.paths, summary.failures.map Failure.fullName)) =
      some (["/out/a/B.hpp", "/out/D.hpp"], ["a.C"]) := by
    decide +kernel
  rcases hrun : sampleConfig.run sampleDefinitions sampleWorkspace with ⟨_ | summary, after⟩
  · simp [hrun, Except.toOption] at hreport
  · simp only [hrun, Except.toOption, Option.map_some, Option.some.injEq, Prod.mk.injEq] at hreport
    exact ⟨summary, after, rfl, hreport.1, hreport.2, run_delivers rfl (by decide) hrun⟩

end Config

end DsdlHeaders
