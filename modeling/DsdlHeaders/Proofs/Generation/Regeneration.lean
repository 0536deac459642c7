import DsdlHeaders.Proofs.Generation.Stages
import DsdlHeaders.Proofs.Template.Sessions

/-!
# Running again

A run over what an earlier run left has nothing to do (`run_again`): every header that was generated
is up to date, every definition that failed fails again, and no file changes.

* **Attempts repeat** (`Attempts.again`). A header that was written is still there, because later
  headers go elsewhere and nothing is removed; what could not be written was refused by a store that
  has only grown since.
* **Failures recur** (`Failure.Recurs`) as they were, with one exception: a file in the place of a
  directory is reported as one that exists when the way to it had to be made first, and as one that
  is no directory when the way is there. That takes an output directory with a step up, as
  `run_again_detour` shows.
* **The template** is found again in the cache, or read again from a file that is no header
  (`FindsTemplate`).
-/

namespace DsdlHeaders

/-- An entry whose file needs nothing any more. -/
def Entry.settled (entry : Entry) : Entry :=
  { entry with outcome := some .upToDate }

/-- Only the outcome of an entry changes. -/
theorem Entry.settled_mk (fullName path : String) (outcome : Option Outcome) :
    Entry.settled ⟨fullName, path, outcome⟩ = ⟨fullName, path, some .upToDate⟩ := rfl

/-- How a failure recurs: as it was, or with a file that existed now reported as no directory. The
latter takes an output directory with a step up if the store was a tree. -/
def Failure.Recurs (start : Store) (folder : String) (failure later : Failure) : Prop :=
  later = failure ∨
    ((∃ path, failure.cause = .write ⟨path, .alreadyExists⟩ ∧
      later = ⟨failure.fullName, .write ⟨path, .notDirectory⟩⟩) ∧
    (start.IsTree → .up ∈ Path.steps folder))

namespace Path

/-- Steps of pieces that do not lead up lead down. -/
theorem exists_names_of_up_not_mem {pieces : List (List Char)}
    (h : .up ∉ pieces.filterMap stepOf?) :
    ∃ names : List String, pieces.filterMap stepOf? = names.map .entry := by
  induction pieces with
  | nil => exact ⟨[], rfl⟩
  | cons piece pieces ih =>
    rw [List.filterMap_cons] at h ⊢
    cases hstep : stepOf? piece with
    | none =>
      rw [hstep] at h
      exact ih h
    | some step =>
      simp only [hstep, List.mem_cons, not_or] at h ⊢
      obtain ⟨names, hnames⟩ := ih h.2
      have hentry : ∃ name, step = .entry name := by
        unfold stepOf? at hstep
        split_ifs at hstep
        · exact absurd (Option.some.inj hstep) h.1
        · exact ⟨_, (Option.some.inj hstep).symm⟩
      obtain ⟨name, rfl⟩ := hentry
      exact ⟨name :: names, by rw [hnames, List.map_cons]⟩

/-- A path from the root that never leads up. -/
theorem exists_names_of_isAbsolute {path : String} (habsolute : isAbsolute path = true)
    (h : .up ∉ steps path) : ∃ names : List String, steps path = .root :: names.map .entry := by
  simp only [steps, habsolute, if_true, List.singleton_append, List.mem_cons, not_or] at h ⊢
  obtain ⟨names, hnames⟩ := exists_names_of_up_not_mem h.2
  exact ⟨names, by rw [hnames]⟩

end Path

namespace Failure

/-- A failure recurs for an earlier store as it does for a later one. -/
theorem Recurs.mono {start middle : Store} {folder : String} {failure later : Failure}
    (h : Recurs middle folder failure later) (htree : start.IsTree → middle.IsTree) :
    Recurs start folder failure later := by
  rcases h with rfl | ⟨hpath, hup⟩
  · exact .inl rfl
  · exact .inr ⟨hpath, fun hstart => hup (htree hstart)⟩

/-- Without a step up a failure in a tree recurs as it was. -/
theorem Recurs.eq {start : Store} {folder : String} {failure later : Failure}
    (h : Recurs start folder failure later) (htree : start.IsTree)
    (hup : .up ∉ Path.steps folder) : later = failure := by
  rcases h with rfl | ⟨-, hmem⟩
  · rfl
  · exact absurd (hmem htree) hup

end Failure

namespace Config

variable {config : Config} {folder : String} {template : Template.Compiled}

/-! ## Paths of headers -/

/-- The current directory is spelled from the root. -/
theorem isAbsolute_currentPath (store : Store) : Path.isAbsolute store.currentPath = true := by
  rw [Path.isAbsolute_iff, Store.currentPath, String.toList_append]
  exact List.prefix_append _ _

/-- The path of a header below a directory that is spelled from the root is tidy, and what encloses
it are the names of the definition below that directory. -/
theorem headerPath_spec {definition : Definition} (hfolder : Path.isAbsolute folder = true)
    (hname : isFullName definition.fullName = true) (hext : '/' ∉ config.extension.toList) :
    Path.IsTidy (config.headerPath folder definition) ∧ ∃ outer,
      Path.parent? (config.headerPath folder definition) = some outer ∧
      Path.steps outer = Path.steps folder ++ definition.spaces.map .entry := by
  have htidy : Path.IsTidy (config.headerPath folder definition) ∧ ∃ outer,
      Path.parent? (config.headerPath folder definition) = some outer := by
    unfold headerPath
    rw [Definition.outputPath_eq_joinWith _ hname]
    refine Path.isTidy_push_joinWith hfolder (by simp [Definition.headerNames]) ?_
    intro name hmem
    obtain ⟨part, hpart, rfl⟩ := List.mem_map.mp hmem
    exact Definition.isName_of_mem_headerNames hname hext hpart
  obtain ⟨htidy, outer, hparent⟩ := htidy
  refine ⟨htidy, outer, hparent, ?_⟩
  obtain ⟨step, hsteps⟩ := Path.steps_of_parent? hparent
  rw [headerPath, Definition.steps_push_outputPath hname hext, Definition.headerNames,
    List.map_append, ← List.append_assoc, List.map_singleton] at hsteps
  exact (List.append_inj' hsteps rfl).1.symm

/-- In a tree only a step up hides a file on the way to a header. -/
theorem up_mem_of_hidesFile {store : Store} {outer : String} {names : List String}
    (hfolder : Path.isAbsolute folder = true)
    (hsteps : Path.steps outer = Path.steps folder ++ names.map .entry)
    (hhides : store.HidesFile outer) (htree : store.IsTree) : .up ∈ Path.steps folder := by
  by_contra hup
  obtain ⟨first, hfirst⟩ := Path.exists_names_of_isAbsolute hfolder hup
  rw [hfirst, List.cons_append, ← List.map_append] at hsteps
  exact htree.not_hidesFile hsteps hhides

/-! ## Attempts again -/

/-- An attempt that writes does what the write does. -/
theorem generateOne_of_write {context : Context} {path text : String} {workspace : Workspace}
    {store : Store} {result : Except WriteFault Outcome}
    (hexpand : template.expand context = .ok text)
    (hwrite : workspace.store.write config.readOnly path text = (result, store)) :
    ∃ after, config.generateOne template context path workspace =
      (result.mapError Cause.write, after) ∧ after.store = store := by
  unfold generateOne Workspace.write
  simp only [hexpand, hwrite]
  cases result with
  | error fault => exact ⟨_, rfl, rfl⟩
  | ok outcome => exact ⟨_, rfl, rfl⟩

/-- A header that was written is still there after attempts on other definitions. -/
theorem read_of_attempts {definition : Definition} {context : Context} {rest : List Prepared}
    {before middle after : Workspace} {entries : List Entry} {failures : List Failure}
    {text : String} {outcome : Outcome} (hext : '/' ∉ config.extension.toList)
    (hnames : ∀ item ∈ (definition, context) :: rest, isFullName item.1.fullName = true)
    (hfresh : definition.fullName ∉ rest.map (·.1.fullName))
    (hwritten : before.store.write config.readOnly (config.headerPath folder definition) text =
      (.ok outcome, middle.store))
    (hlater : Attempts config folder template rest middle entries failures after) :
    after.store.read (config.headerPath folder definition) = .ok (normalize text).toUTF8 := by
  obtain ⟨place, mode, hlocate, hnode, -⟩ := Store.write_ok_spares hwritten
  have hspares := hlater.spares
  refine Store.read_of_node? (hspares.locate hlocate) ((hspares.files place ?_ _ mode).mpr hnode)
  rintro ⟨item, hitem, hsame⟩
  have hplace : config.headerPlace folder middle.store.current definition =
      config.headerPlace folder middle.store.current item.1 :=
    (Store.locate_eq_ok hlocate).symm.trans hsame
  have hname := headerPlace_injective (hnames (definition, context) (by simp))
    (hnames item (by simp [hitem])) hext hplace
  exact hfresh (hname ▸ List.mem_map.mpr ⟨item, hitem, rfl⟩)

/-- A header that was generated is up to date from then on. -/
theorem entry_again {definition : Definition} {context : Context} {rest : List Prepared}
    {before middle after workspace : Workspace} {entries : List Entry} {failures : List Failure}
    {outcome : Outcome} (hfolder : Path.isAbsolute folder = true)
    (hext : '/' ∉ config.extension.toList)
    (hnames : ∀ item ∈ (definition, context) :: rest, isFullName item.1.fullName = true)
    (hfresh : definition.fullName ∉ rest.map (·.1.fullName))
    (hone : config.generateOne template context (config.headerPath folder definition) before =
      (.ok outcome, middle))
    (hlater : Attempts config folder template rest middle entries failures after)
    (hstore : workspace.store = after.store) :
    ∃ next, config.generateOne template context (config.headerPath folder definition) workspace =
      (.ok .upToDate, next) ∧ next.store = after.store := by
  obtain ⟨text, hexpand, hwritten⟩ := generateOne_eq_ok hone
  obtain ⟨htidy, outer, hparent, -⟩ :=
    headerPath_spec hfolder (hnames (definition, context) (by simp)) hext
  have hread := read_of_attempts hext hnames hfresh hwritten hlater
  have hagain := Store.write_of_read config.readOnly htidy hparent hread
  rw [← hstore] at hagain ⊢
  exact generateOne_of_write hexpand hagain

/-- A definition that failed fails in every store that retains what it left. -/
theorem failure_again {definition : Definition} {context : Context}
    {before middle workspace : Workspace} {cause : Cause} (hfolder : Path.isAbsolute folder = true)
    (hext : '/' ∉ config.extension.toList) (hname : isFullName definition.fullName = true)
    (hone : config.generateOne template context (config.headerPath folder definition) before =
      (.error cause, middle)) (hretains : Store.Retains middle.store workspace.store) :
    ∃ later next, config.generateOne template context (config.headerPath folder definition)
        workspace = (.error later, next) ∧ next.store = workspace.store ∧
      Failure.Recurs before.store folder ⟨definition.fullName, cause⟩
        ⟨definition.fullName, later⟩ := by
  rcases generateOne_eq_error hone with
    ⟨error, hexpand, rfl, -⟩ | ⟨text, fault, hexpand, rfl, hwrite⟩
  · refine ⟨.expand error, workspace, ?_, rfl, .inl rfl⟩
    unfold generateOne
    rw [hexpand]
  · obtain ⟨htidy, outer, hparent, hsteps⟩ := headerPath_spec hfolder hname hext
    obtain ⟨later, hagain, hsame⟩ := Store.write_error_again htidy hparent hwrite hretains
    obtain ⟨next, hnext, hstore⟩ := generateOne_of_write hexpand hagain
    refine ⟨.write later, next, hnext, hstore, ?_⟩
    rcases hsame with rfl | ⟨rfl, rfl, hhides⟩
    · exact .inl rfl
    · exact .inr ⟨⟨outer, rfl, rfl⟩, up_mem_of_hidesFile hfolder hsteps hhides⟩

/-- Attempts over what they left: every header is up to date, every failure recurs, and no file
changes. -/
theorem Attempts.again {prepared : List Prepared} {before after : Workspace}
    {entries : List Entry} {failures : List Failure}
    (h : Attempts config folder template prepared before entries failures after)
    (hfolder : Path.isAbsolute folder = true) (hext : '/' ∉ config.extension.toList)
    (hnames : ∀ item ∈ prepared, isFullName item.1.fullName = true)
    (hdistinct : (prepared.map (·.1.fullName)).Nodup) {workspace : Workspace}
    (hstore : workspace.store = after.store) :
    ∃ later final, Attempts config folder template prepared workspace
        (entries.map Entry.settled) later final ∧ final.store = after.store ∧
      List.Forall₂ (Failure.Recurs before.store folder) failures later := by
  induction h generalizing workspace with
  | nil _ => exact ⟨[], workspace, .nil workspace, hstore, .nil⟩
  | @entry definition context rest before middle after entries failures outcome one hlater ih =>
    rw [List.map_cons, List.nodup_cons] at hdistinct
    obtain ⟨next, hone, hnext⟩ := entry_again hfolder hext hnames hdistinct.1 one hlater
      ((announced_store definition workspace).trans hstore)
    obtain ⟨later, final, hattempts, hfinal, hrecurs⟩ :=
      ih (fun item hitem => hnames item (by simp [hitem])) hdistinct.2 hnext
    have htree := isTree_of_generateOne one
    rw [List.map_cons, Entry.settled_mk]
    exact ⟨later, final, .entry hone hattempts, hfinal,
      hrecurs.imp fun _ _ hrecur => hrecur.mono htree⟩
  | @failure definition context rest before middle after entries failures cause one hlater ih =>
    rw [List.map_cons, List.nodup_cons] at hdistinct
    have hretains := hlater.retains
    rw [Workspace.say_store, ← hstore, ← announced_store definition workspace] at hretains
    obtain ⟨again, next, hone, hnext, hfirst⟩ := failure_again hfolder hext
      (hnames (definition, context) (by simp)) one hretains
    rw [announced_store, hstore] at hnext
    obtain ⟨later, final, hattempts, hfinal, hrecurs⟩ :=
      ih (fun item hitem => hnames item (by simp [hitem])) hdistinct.2
        ((Workspace.say_store next .warn
          (Failure.message ⟨definition.fullName, again⟩)).trans hnext)
    have htree := isTree_of_generateOne one
    exact ⟨_, final, .failure hone hattempts, hfinal,
      .cons hfirst (hrecurs.imp fun _ _ hrecur => hrecur.mono htree)⟩

/-! ## The other stages again -/

/-- Preparing gives the same in every workspace. -/
theorem prepare_again {definitions : List Definition} {summary result : Summary}
    {prepared : List Prepared} {workspace after : Workspace}
    (h : config.prepare definitions summary workspace = (.ok (prepared, result), after))
    (other : Workspace) : ∃ ready,
      config.prepare definitions summary other = (.ok (prepared, result), ready) ∧
        ready.store = other.store ∧ ready.cache = other.cache := by
  cases hpolicy : config.policy with
  | proceed =>
    rw [prepare_of_proceed hpolicy] at h ⊢
    exact ⟨_, Prod.ext (Prod.mk.inj h).1 rfl, rfl, rfl⟩
  | abort =>
    rw [prepare_of_abort hpolicy] at h ⊢
    exact ⟨other, Prod.ext (Prod.mk.inj h).1 rfl, rfl, rfl⟩

/-- An attempt changes no template. -/
theorem cache_of_generateOne {context : Context} {path : String} {before after : Workspace}
    {result : Except Cause Outcome}
    (h : config.generateOne template context path before = (result, after)) :
    after.cache = before.cache := by
  unfold generateOne Workspace.write at h
  simp only at h
  split at h
  · rw [← (Prod.mk.inj h).2]
  · rename_i text _
    cases hwrite : (before.store.write config.readOnly path text).1 with
    | error fault =>
      simp only [hwrite] at h
      rw [← (Prod.mk.inj h).2]
    | ok outcome =>
      simp only [hwrite] at h
      rw [← (Prod.mk.inj h).2, Workspace.say_cache]

/-- Attempts change no template. -/
theorem Attempts.cache {prepared : List Prepared} {before after : Workspace}
    {entries : List Entry} {failures : List Failure}
    (h : Attempts config folder template prepared before entries failures after) :
    after.cache = before.cache := by
  induction h with
  | nil _ => rfl
  | entry one _ ih =>
    have hone := cache_of_generateOne one
    exact ih.trans hone
  | failure one _ ih =>
    have hone := cache_of_generateOne one
    exact ih.trans hone

/-- A cache in which a run finds the template of an earlier run again: the cache that the earlier
run left, or one without the template, when the earlier run had to read the template's file and the
file is none of its headers. -/
def FindsTemplate (config : Config) (before after : Workspace) (summary : Summary)
    (cache : Template.Cache) : Prop :=
  cache = after.cache ∨
    (before.cache.find? config.template = none ∧ cache.find? config.template = none ∧
      ∀ entry ∈ summary.entries,
        after.store.locate entry.path ≠ after.store.locate config.template)

/-- The template is the same. -/
theorem FindsTemplate.get {config : Config} {folder : String} {definitions : List Definition}
    {before after : Workspace} {summary : Summary} {cache : Template.Cache}
    {cached : Template.Cached} (h : config.FindsTemplate before after summary cache)
    (hget : before.cache.get before.store config.template = (.ok cached, after.cache))
    (hretains : Store.Retains before.store after.store)
    (hdelivers : config.Delivers definitions before.store folder cached.template summary
      after.store) :
    ∃ again, (cache.get after.store config.template).1 = .ok again ∧
      again.template = cached.template := by
  rcases h with rfl | ⟨hbefore, hnone, hfile⟩
  · exact ⟨cached, Template.Cache.get_of_find? (Template.Cache.find?_of_get hget) _, rfl⟩
  · rcases Template.Cache.get_cases hget with ⟨hfind, -⟩ | ⟨-, hcompile, -⟩
    · exact absurd (hbefore.symm.trans hfind) (by simp)
    · -- the file of the template is none of the headers, so it was not touched
      obtain ⟨bytes, hread⟩ := Template.exists_read_of_compileFile hcompile
      obtain ⟨place, mode, hlocate, hnode⟩ := Store.read_eq_ok hread
      have hthere := hretains.spares.locate hlocate
      have helsewhere : ∀ entry ∈ summary.entries,
          after.store.locate entry.path ≠ .ok (.entry place false) := by
        intro entry hentry hsame
        exact hfile entry hentry (hsame.trans hthere.symm)
      have hkept := (hdelivers.others place helsewhere bytes mode).mpr hnode
      have hagain := Store.read_of_node? hthere hkept
      rw [← Template.compileFile_congr (hagain.trans hread.symm)] at hcompile
      exact ⟨_, Template.Cache.get_of_compileFile hnone hcompile, rfl⟩

/-- A template that the cache gives is the template of the run. -/
theorem template_of_get {workspace : Workspace} {path : String} {cached : Template.Cached}
    (h : (workspace.cache.get workspace.store path).1 = .ok cached) : ∃ ready,
      workspace.template path = (.ok cached.template, ready) ∧ ready.store = workspace.store := by
  unfold Workspace.template
  simp only [h]
  refine ⟨_, rfl, ?_⟩
  dsimp only
  split_ifs <;> rfl

/-! ## The whole run again -/

/-- Generating headers below a directory again. -/
theorem generateBelow_again {config : Config} {folder : String} {definitions : List Definition}
    {before after workspace : Workspace} {summary : Summary} (hext : '/' ∉ config.extension.toList)
    (hfolder : Path.isAbsolute folder = true) (hvalid : Valid definitions)
    (h : config.generateBelow folder definitions before = (.ok summary, after))
    (hstore : workspace.store = after.store)
    (hcache : config.FindsTemplate before after summary workspace.cache) :
    ∃ failures final, config.generateBelow folder definitions workspace =
        (.ok ⟨summary.entries.map Entry.settled, failures⟩, final) ∧
      final.store = after.store ∧
      List.Forall₂ (Failure.Recurs before.store folder) summary.failures failures := by
  obtain ⟨prepared, early, cached, working, ⟨ready, hprepare⟩, hprepares, hcached, hworking,
    hgenerate⟩ := generateBelow_eq_ok h
  obtain ⟨found, hfound, hdelivers⟩ := delivers_of_generateBelow hext hvalid h
  obtain rfl : cached = found := Except.ok.inj ((congrArg Prod.fst hcached).symm.trans hfound)
  obtain ⟨entries, late, rfl, hattempts, hnone⟩ := attempts_of_generateAll hgenerate
  simp only [List.nil_append] at hdelivers hcache ⊢
  -- the template is the same
  have hretains := hattempts.retains
  rw [hworking] at hretains
  rw [← hattempts.cache] at hcached
  obtain ⟨again, hget, hsame⟩ := hcache.get hcached hretains hdelivers
  -- so the second run makes the same attempts
  obtain ⟨ready', hprepare', hready', hcache'⟩ := prepare_again hprepare workspace
  rw [← hstore, ← hready', ← hcache'] at hget
  obtain ⟨next, htemplate, hnext⟩ := template_of_get hget
  obtain ⟨later, final, hagain, hfinal, hrecurs⟩ := hattempts.again hfolder hext
    (hprepares.names hvalid) (hprepares.distinct hvalid) (hnext.trans (hready'.trans hstore))
  have hpolicy : config.policy = .proceed ∨ later = [] := by
    cases hpolicy : config.policy with
    | proceed => exact .inl rfl
    | abort =>
      rw [hnone hpolicy, List.forall₂_nil_left_iff] at hrecurs
      exact .inr hrecurs
  refine ⟨early ++ later, final, ?_, hfinal, ?_⟩
  · unfold generateBelow
    simp only [hprepare', htemplate, hsame]
    exact generateAll_of_attempts hagain hpolicy ⟨[], early⟩
  · rw [hworking] at hrecurs
    exact List.rel_append (List.forall₂_same.mpr fun _ _ => .inl rfl) hrecurs

/-- **Running again changes nothing.** Let a run that is no dry run return a summary. A run over
what it left, with the same template, has the same entries in the same order, each of them up to
date, leaves the store as it is, and fails for the same definitions in the same order. The failures
are the same if the store was a tree and the output directory is spelled without a step up;
otherwise a file in the place of a directory may be reported as no directory instead of as
existing. An extension is part of a name, so it holds no slash. -/
theorem run_again {config : Config} {definitions : List Definition} {before after : Workspace}
    {summary : Summary} {cache : Template.Cache} (hdry : config.dryRun = false)
    (hext : '/' ∉ config.extension.toList)
    (h : config.run definitions before = (.ok summary, after))
    (hcache : config.FindsTemplate before after summary cache) (log : List LogLine) :
    ∃ folder failures final,
      Path.absolute? before.store.currentPath config.output = some folder ∧
      config.run definitions ⟨after.store, cache, log⟩ =
        (.ok ⟨summary.entries.map Entry.settled, failures⟩, final) ∧
      final.store = after.store ∧
      List.Forall₂ (Failure.Recurs before.store folder) summary.failures failures ∧
      (before.store.IsTree → .up ∉ Path.steps folder → failures = summary.failures) := by
  rcases run_cases h with ⟨hresult, -⟩ | ⟨error, hresult, -⟩ | ⟨fault, hresult, -⟩ |
    ⟨found, -, hsaid, -, -, -⟩ | ⟨folder, hne, hvalid, -, hfolder, hbelow⟩
  · exact absurd hresult (by simp)
  · exact absurd hresult (by simp)
  · exact absurd hresult (by simp)
  · exact absurd (hdry.symm.trans hsaid) (by simp)
  · have habsolute := Path.isAbsolute_of_absolute? (isAbsolute_currentPath before.store) hfolder
    have hcurrent : after.store.currentPath = before.store.currentPath := by
      obtain ⟨prepared, early, cached, working, -, -, -, hworking, hgenerate⟩ :=
        generateBelow_eq_ok hbelow
      obtain ⟨entries, late, -, hattempts, -⟩ := attempts_of_generateAll hgenerate
      have hretains := hattempts.retains
      rw [hworking] at hretains
      exact congrArg (fun current => "/" ++ String.intercalate "/" current) hretains.current
    obtain ⟨failures, final, hagain, hfinal, hrecurs⟩ := generateBelow_again hext habsolute hvalid
      hbelow (counted_store definitions ⟨after.store, cache, log⟩) hcache
    refine ⟨folder, failures, final, hfolder, ?_, hfinal, hrecurs, ?_⟩
    · rw [run_eq_generateBelow config hne hvalid hdry (by rw [hcurrent]; exact hfolder)]
      exact hagain
    · intro htree hup
      have hequal : List.Forall₂ (· = ·) summary.failures failures :=
        hrecurs.imp fun _ _ hrecur => (hrecur.eq htree hup).symm
      rw [List.forall₂_eq_eq_eq] at hequal
      exact hequal.symm

/-- Everything in the sample store is in a directory. -/
theorem isTree_clashingWorkspace : clashingWorkspace.store.IsTree := by
  refine ⟨rfl, ?_⟩
  intro place name node h
  have hplace : place = (place ++ [name]).dropLast := by simp
  simp only [clashingWorkspace, Store.node?, List.append_eq_nil_iff, List.cons_ne_self, and_false,
    if_false, Store.find?] at h
  split_ifs at h with hout hfile
  · rw [hplace, ← hout]
    rfl
  · rw [hplace, ← hfile]
    rfl

/-- The sample run over what it left: the header that it could write is up to date, and the two
definitions that failed fail in the same way. -/
theorem run_again_clashing : ∃ summary after final,
    sampleConfig.run sampleDefinitions clashingWorkspace = (.ok summary, after) ∧
    summary.paths = ["/out/D.hpp"] ∧
    summary.failures.map Failure.fullName = ["a.C", "a.B"] ∧
    sampleConfig.run sampleDefinitions ⟨after.store, after.cache, []⟩ =
      (.ok ⟨summary.entries.map Entry.settled, summary.failures⟩, final) ∧
    final.store = after.store := by
  have hreport : (sampleConfig.run sampleDefinitions clashingWorkspace).1.toOption.map
      (fun summary => (summary.paths, summary.failures.map Failure.fullName)) =
      some (["/out/D.hpp"], ["a.C", "a.B"]) := by
    decide +kernel
  have hfolder : Path.absolute? clashingWorkspace.store.currentPath sampleConfig.output =
      some "/out" := by
    decide
  rcases hrun : sampleConfig.run sampleDefinitions clashingWorkspace with ⟨_ | summary, after⟩
  · exact absurd hreport (by simp [hrun, Except.toOption])
  · simp only [hrun, Except.toOption, Option.map_some, Option.some.injEq, Prod.mk.injEq] at hreport
    obtain ⟨folder, failures, final, hfound, hagain, hfinal, -, hsame⟩ :=
      run_again rfl (by decide) hrun (.inl rfl) []
    obtain rfl := Option.some.inj (hfolder.symm.trans hfound)
    rw [hsame isTree_clashingWorkspace (by decide)] at hagain
    exact ⟨summary, after, final, rfl, hreport.1, hreport.2, hagain, hfinal⟩

/-- A run that goes on, with an output directory that is spelled with a step up. -/
def detourConfig : Config :=
  { output := "x/../f", template := "t", policy := .proceed }

/-- A store with a file where the output directory should be, and a cached template. -/
def detourWorkspace : Workspace where
  store := ⟨[(["f"], .file "k".toUTF8 0o644)], []⟩
  cache := ⟨[⟨0, ⟨"t", [.text "x "]⟩⟩], 1⟩
  log := []

/-- A message. -/
def detourDefinitions : List Definition :=
  [.message "g.T" none (.empty false)]

/-- The way to the output directory is made by the first run, so the second one meets the file from
below, and reports it in another way. -/
theorem run_again_detour : ∃ summary after later final,
    detourConfig.run detourDefinitions detourWorkspace = (.ok summary, after) ∧
    detourConfig.run detourDefinitions after = (.ok later, final) ∧
    summary.failures = [⟨"g.T", .write ⟨"/x/../f/g", .alreadyExists⟩⟩] ∧
    later.failures = [⟨"g.T", .write ⟨"/x/../f/g", .notDirectory⟩⟩] ∧
    later.failures ≠ summary.failures := by
  have hfirst : (detourConfig.run detourDefinitions detourWorkspace).1 =
      .ok ⟨[], [⟨"g.T", .write ⟨"/x/../f/g", .alreadyExists⟩⟩]⟩ := by
    decide +kernel
  have hsecond : (detourConfig.run detourDefinitions
      (detourConfig.run detourDefinitions detourWorkspace).2).1 =
      .ok ⟨[], [⟨"g.T", .write ⟨"/x/../f/g", .notDirectory⟩⟩]⟩ := by
    decide +kernel
  rcases hrun : detourConfig.run detourDefinitions detourWorkspace with ⟨result, after⟩
  rw [hrun] at hfirst hsecond
  rcases hagain : detourConfig.run detourDefinitions after with ⟨repeated, final⟩
  rw [hagain] at hsecond
  obtain rfl : result = _ := hfirst
  obtain rfl : repeated = _ := hsecond
  exact ⟨_, after, _, final, rfl, hagain, rfl, rfl, by simp⟩

end Config

end DsdlHeaders
