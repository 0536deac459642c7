import DsdlHeaders.CommandLine.Command
import DsdlHeaders.Proofs.Generation.Stages

/-!
# What a failed run leaves behind

A run that fails before its first attempt leaves the store as it was. A run that aborts at a
definition has generated the headers before it and nothing else (`StopsAt`); if the template could
not be expanded even its directories are not there. `LeavesBehind` puts both together.

The command adds the documents (`readAll_eq`): all of them are read before anything is written, so
one that cannot be read leaves the store as it was, wherever it stands.
-/

namespace DsdlHeaders

namespace Config

variable {config : Config} {folder : String} {template : Template.Compiled}

/-! ## Stopping at a definition -/

/-- What is left by a run that stops at a definition in a stage: the headers of the definitions done
before it are there, all other files are as they were, and new directories are on the way to these
headers, or to the one that could not be written. -/
structure StopsAt (config : Config) (folder : String) (template : Template.Compiled)
    (done : List Definition) (definition : Definition) (stage : Stage) (before after : Store) :
    Prop where
  headers : ∀ earlier ∈ done, ∃ context text, earlier.context config.extension = .ok context ∧
    template.expand context = .ok text ∧
    after.read (config.headerPath folder earlier) = .ok (normalize text).toUTF8
  files : ∀ place, (∀ earlier ∈ done,
      after.locate (config.headerPath folder earlier) ≠ .ok (.entry place false)) →
    ∀ bytes mode,
      after.node? place = some (.file bytes mode) ↔ before.node? place = some (.file bytes mode)
  kept : ∀ place, before.node? place = some .directory → after.node? place = some .directory
  directories : ∀ place, after.node? place = some .directory →
    before.node? place = some .directory ∨
    (∃ earlier ∈ done, config.IsOnWay folder before.current earlier place) ∨
    (stage = .write ∧ config.IsOnWay folder before.current definition place)

/-- The headers of attempts that do not fail are in the store after them. -/
theorem headers_of_attempts {prepared : List Prepared} {before after : Workspace}
    {entries : List Entry} (hext : '/' ∉ config.extension.toList)
    (hnames : ∀ item ∈ prepared, isFullName item.1.fullName = true)
    (hdistinct : (prepared.map (·.1.fullName)).Nodup)
    (hcontexts : ∀ item ∈ prepared, item.1.context config.extension = .ok item.2)
    (h : Attempts config folder template prepared before entries [] after) :
    ∀ definition ∈ prepared.map Prod.fst, ∃ entry,
      config.IsHeader folder template after.store definition entry := by
  have hrun := generateAll_of_attempts h (.inr rfl) Summary.empty
  obtain ⟨found, failures, hresult, hgenerates⟩ :=
    generateAll_eq_ok hext hnames hdistinct hcontexts hrun
  obtain ⟨generated, hsub, hheaders, honce, -⟩ := hgenerates.headers
  obtain rfl : failures = [] := by
    simpa [Summary.empty] using (Summary.mk.inj hresult).2
  -- all of them were generated, because none failed
  have hall : generated = prepared.map Prod.fst := by
    refine hsub.eq_of_length ?_
    simpa using honce.length_eq
  intro definition hdefinition
  obtain ⟨entry, -, hentry⟩ := exists_right_of_forall₂ hheaders definition (hall ▸ hdefinition)
  exact ⟨entry, hentry⟩

/-- A failed attempt after others that did not fail. -/
theorem stopsAt_of_attempts {done : List Prepared} {definition : Definition} {context : Context}
    {before middle after : Workspace} {entries : List Entry} {cause : Cause}
    (hext : '/' ∉ config.extension.toList)
    (hnames : ∀ item ∈ done, isFullName item.1.fullName = true)
    (hdistinct : (done.map (·.1.fullName)).Nodup)
    (hcontexts : ∀ item ∈ done, item.1.context config.extension = .ok item.2)
    (h : Attempts config folder template done before entries [] middle)
    (hone : config.generateOne template context (config.headerPath folder definition)
      (announced definition middle) = (.error cause, after)) :
    config.StopsAt folder template (done.map Prod.fst) definition cause.stage before.store
      after.store := by
  have hspares := generateOne_error_spares hone
  rw [announced_store] at hspares
  have hdone := h.spares
  have hheaders : ∀ earlier ∈ done.map Prod.fst, ∃ entry,
      config.IsHeader folder template after.store earlier entry := by
    intro earlier hearlier
    obtain ⟨entry, hentry⟩ := headers_of_attempts hext hnames hdistinct hcontexts h earlier hearlier
    exact ⟨entry, hentry.of_spares hspares (Set.notMem_empty _)⟩
  refine ⟨?_, ?_, ?_, ?_⟩
  · intro earlier hearlier
    obtain ⟨entry, hentry⟩ := hheaders earlier hearlier
    exact hentry.path ▸ hentry.content
  · intro place hplace bytes mode
    refine (hspares.files place (Set.notMem_empty _) bytes mode).trans
      (hdone.files place ?_ bytes mode)
    rintro ⟨item, hitem, hsame⟩
    obtain ⟨entry, hentry⟩ := hheaders item.1 (List.mem_map_of_mem hitem)
    obtain ⟨found, text, -, -, hread⟩ := hentry.content
    obtain ⟨target, mode, hlocate, -⟩ := Store.read_eq_ok hread
    have htarget := Store.locate_eq_ok hlocate
    rw [hspares.current, hdone.current, hentry.path] at htarget
    rw [hentry.path, htarget] at hlocate
    exact hplace item.1 (List.mem_map_of_mem hitem) (hlocate.trans (by rw [hsame, headerPlace]))
  · exact fun place hplace => hspares.directories place (hdone.directories place hplace)
  · intro place hplace
    have hmiddle : middle.store.node? place = some .directory →
        before.store.node? place = some .directory ∨
        (∃ earlier ∈ done.map Prod.fst, config.IsOnWay folder before.store.current earlier place) ∨
        (cause.stage = .write ∧
          config.IsOnWay folder before.store.current definition place) := by
      intro hthere
      rcases h.directories place hthere with hbefore | ⟨item, hitem, hway⟩
      · exact .inl hbefore
      · exact .inr (.inl ⟨item.1, List.mem_map_of_mem hitem, hway⟩)
    rcases generateOne_eq_error hone with ⟨error, -, rfl, rfl⟩ | ⟨text, fault, -, rfl, -⟩
    · exact hmiddle hplace
    · rcases directories_of_generateOne hone place hplace with hthere | hway
      · exact hmiddle hthere
      · refine .inr (.inr ⟨rfl, ?_⟩)
        rw [← hdone.current]
        exact hway

/-! ## Failed runs -/

/-- What a failed run leaves behind. Nothing was touched, unless the run stopped at a definition
whose context could be built: then that is the first definition that failed. -/
structure LeavesBehind (config : Config) (definitions : List Definition) (before : Store)
    (cache : Template.Cache) (error : RunError) (after : Store) : Prop where
  untouched : (∀ failure, error = .failed failure → failure.cause.stage = .context) →
    after = before
  stopped : ∀ failure, error = .failed failure → failure.cause.stage ≠ .context →
    config.policy = .abort ∧ config.dryRun = false ∧
    ∃ folder cached done definition rest,
      Path.absolute? before.currentPath config.output = some folder ∧
      (cache.get before config.template).1 = .ok cached ∧
      definitions = done ++ definition :: rest ∧ failure.fullName = definition.fullName ∧
      config.StopsAt folder cached.template done definition failure.cause.stage before after

/-- An error that is no failure of a definition, or one of a context, and an untouched store. -/
theorem leavesBehind_of_untouched {definitions : List Definition} {before after : Store}
    {cache : Template.Cache} {error : RunError}
    (herror : ∀ failure, error = .failed failure → failure.cause.stage = .context)
    (hafter : after = before) : config.LeavesBehind definitions before cache error after :=
  ⟨fun _ => hafter, fun failure hfailure hstage => absurd (herror failure hfailure) hstage⟩

/-- What a run below a directory leaves behind when it fails. -/
theorem generateBelow_error {definitions : List Definition} {before after : Workspace}
    {error : RunError} (hext : '/' ∉ config.extension.toList) (hvalid : Valid definitions)
    (hdry : config.dryRun = false)
    (hfolder : Path.absolute? before.store.currentPath config.output = some folder)
    (h : config.generateBelow folder definitions before = (.error error, after)) :
    config.LeavesBehind definitions before.store before.cache error after.store := by
  unfold generateBelow at h
  split at h
  · rename_i found stopped hprepare
    obtain ⟨herror, rfl⟩ := Prod.mk.inj h
    obtain ⟨rfl, failure, rfl, hstage⟩ := prepare_eq_error hprepare
    refine leavesBehind_of_untouched ?_ rfl
    intro other hother
    obtain rfl := RunError.failed.inj (Except.error.inj herror ▸ hother)
    exact hstage
  · rename_i prepared summary ready hprepare
    obtain ⟨hstore, hcache, failures, -, hprepares⟩ := prepare_eq_ok hprepare
    split at h
    · rename_i found stopped htemplate
      obtain ⟨herror, rfl⟩ := Prod.mk.inj h
      obtain ⟨hstopped, problem, rfl⟩ := template_eq_error htemplate
      obtain rfl := Except.error.inj herror
      exact leavesBehind_of_untouched (by simp) (hstopped.trans hstore)
    · rename_i template working htemplate
      obtain ⟨hworking, cached, hcached, rfl⟩ := Workspace.template_eq_ok htemplate
      obtain ⟨hpolicy, done, definition, context, rest, entries, middle, cause, rfl, hattempts,
        hone, rfl⟩ := attempts_of_error h
      have hall := map_fst_prepared hpolicy hprepare
      rw [List.map_append, List.map_cons] at hall
      have hsub : ∀ item ∈ done, item.1 ∈ definitions := by
        intro item hitem
        rw [← hall]
        exact List.mem_append_left _ (List.mem_map_of_mem hitem)
      have hdistinct : (done.map (·.1.fullName)).Nodup := by
        have hall' := hvalid.distinct
        rw [← hall, List.map_append, List.nodup_append] at hall'
        simpa [List.map_map, Function.comp_def] using hall'.1
      have hstops := stopsAt_of_attempts hext
        (fun item hitem => (hvalid.each _ (hsub item hitem)).name) hdistinct
        (fun item hitem => hprepares.contexts item (by simp [hitem])) hattempts hone
      rw [hworking, hstore] at hstops
      refine ⟨fun herror => ?_, ?_⟩
      · exact absurd (herror _ rfl) (stage_of_generateOne hone)
      · rintro failure hfailure -
        obtain rfl := RunError.failed.inj hfailure
        refine ⟨hpolicy, hdry, folder, cached, done.map Prod.fst, definition, rest.map Prod.fst,
          hfolder, ?_, hall.symm, rfl, hstops⟩
        rw [hstore, hcache] at hcached
        rw [hcached]

/-- What a failed run leaves behind. -/
theorem run_error {definitions : List Definition} {before after : Workspace}
    {error : RunError} (hext : '/' ∉ config.extension.toList)
    (h : config.run definitions before = (.error error, after)) :
    config.LeavesBehind definitions before.store before.cache error after.store := by
  rcases run_cases h with ⟨hresult, hstore⟩ | ⟨found, hresult, hstore⟩ | ⟨fault, hresult, hstore⟩ |
    ⟨found, -, -, hresult, -, -⟩ | ⟨folder, -, hvalid, hdry, hfolder, hbelow⟩
  · obtain rfl := Except.error.inj hresult
    exact leavesBehind_of_untouched (by simp) hstore
  · obtain rfl := Except.error.inj hresult
    exact leavesBehind_of_untouched (by simp) hstore
  · obtain rfl := Except.error.inj hresult
    exact leavesBehind_of_untouched (by simp) hstore
  · exact absurd hresult (by simp)
  · rw [← counted_store definitions before] at hfolder
    have hleaves := generateBelow_error hext hvalid hdry hfolder hbelow
    exact hleaves

end Config

/-! ## The command -/

namespace CommandLine

/-- The documents are read in order, and reading them changes no file. -/
theorem readAll_eq (paths : List String) (workspace : Workspace) :
    (readAll paths workspace).1 =
        (paths.mapM workspace.store.readDefinitions).map List.flatten ∧
      (readAll paths workspace).2.store = workspace.store ∧
      (readAll paths workspace).2.cache = workspace.cache := by
  induction paths generalizing workspace with
  | nil => exact ⟨rfl, rfl, rfl⟩
  | cons path rest ih =>
    obtain ⟨hlater, hstore, hcache⟩ := ih (workspace.say .info ("source: " ++ path))
    rw [Workspace.say_store] at hlater hstore
    rw [Workspace.say_cache] at hcache
    rw [List.mapM_cons]
    cases hread : workspace.store.readDefinitions path with
    | error problem => simp [readAll, hread, bind, Except.bind, Except.map]
    | ok definitions =>
      simp only [readAll, Workspace.say_store, hread]
      rcases hrest : readAll rest (workspace.say .info ("source: " ++ path)) with
        ⟨problem | later, after⟩
      · rw [hrest] at hlater hstore hcache
        cases hdocuments : rest.mapM workspace.store.readDefinitions with
        | error found =>
          rw [hdocuments] at hlater
          exact ⟨hlater, hstore, hcache⟩
        | ok documents => exact absurd hlater (by simp [hdocuments, Except.map])
      · rw [hrest] at hlater hstore hcache
        cases hdocuments : rest.mapM workspace.store.readDefinitions with
        | error found => exact absurd hlater (by simp [hdocuments, Except.map])
        | ok documents =>
          rw [hdocuments] at hlater
          obtain rfl := Except.ok.inj hlater
          exact ⟨rfl, hstore, hcache⟩

/-- One document that cannot be read is enough. -/
theorem exists_mapM_readDefinitions {store : Store} {paths : List String} {path : String}
    {problem : DocumentError} (hpath : path ∈ paths)
    (h : store.readDefinitions path = .error problem) :
    ∃ found, paths.mapM store.readDefinitions = .error found := by
  induction paths with
  | nil => exact absurd hpath List.not_mem_nil
  | cons first rest ih =>
    rw [List.mapM_cons]
    cases hfirst : store.readDefinitions first with
    | error found => exact ⟨found, rfl⟩
    | ok definitions =>
      have hrest : path ∈ rest := by
        rcases List.mem_cons.mp hpath with rfl | hrest
        · exact absurd (h.symm.trans hfirst) (by simp)
        · exact hrest
      obtain ⟨found, hfound⟩ := ih hrest
      exact ⟨found, by rw [hfound]; rfl⟩

/-- What the command leaves behind when its run fails. -/
theorem Arguments.run_error {arguments : Arguments} {store : Store}
    {documents : List (List Definition)} {error : RunError}
    (hdocuments : arguments.types.mapM store.readDefinitions = .ok documents)
    (h : (arguments.run store).ending = .error error) :
    arguments.config.LeavesBehind documents.flatten store .empty error
      (arguments.run store).store := by
  obtain ⟨hread, hstore, hcache⟩ := readAll_eq arguments.types ⟨store, .empty, []⟩
  unfold Arguments.run at h ⊢
  rcases hall : readAll arguments.types ⟨store, .empty, []⟩ with ⟨problem | definitions, ready⟩
  · rw [hall, hdocuments] at hread
    exact absurd hread (by simp [Except.map])
  · rw [hall, hdocuments] at hread
    obtain rfl := Except.ok.inj hread
    rw [hall] at hstore hcache h
    dsimp only at hstore hcache
    rcases hrun : arguments.config.run documents.flatten ready with ⟨found | summary, after⟩
    · simp only [hrun, Ending.error.injEq] at h ⊢
      subst h
      have hext : '/' ∉ defaultExtension.toList := by decide
      rw [← hstore, ← hcache]
      exact Config.run_error hext hrun
    · simp only [hrun, endingOf] at h
      split_ifs at h

/-- What the command leaves behind when a document cannot be read. -/
theorem Arguments.run_of_unreadable {arguments : Arguments} {store : Store} {path : String}
    {problem : DocumentError} (hpath : path ∈ arguments.types)
    (hproblem : store.readDefinitions path = .error problem) :
    (∃ found, (arguments.run store).ending = .error (.document found)) ∧
      (arguments.run store).store = store := by
  obtain ⟨hread, hstore, -⟩ := readAll_eq arguments.types ⟨store, .empty, []⟩
  obtain ⟨found, hfound⟩ := exists_mapM_readDefinitions hpath hproblem
  unfold Arguments.run
  rcases hall : readAll arguments.types ⟨store, .empty, []⟩ with ⟨problem | definitions, ready⟩
  · rw [hall] at hstore
    exact ⟨⟨problem, rfl⟩, hstore⟩
  · rw [hall, hfound] at hread
    exact absurd hread (by simp [Except.map])

/-- **What failure leaves behind.** A run that ends before its first attempt leaves the store as it
was; one that stops at a definition has written the headers before it, and nothing else. The same
holds for the command. If one of its documents cannot be read or parsed, it leaves the store as it
was. An extension is part of a name, so it holds no slash. -/
theorem failure_leaves_behind :
    (∀ (config : Config) (definitions : List Definition) (before after : Workspace)
      (error : RunError), '/' ∉ config.extension.toList →
      config.run definitions before = (.error error, after) →
      config.LeavesBehind definitions before.store before.cache error after.store) ∧
    (∀ (words : List String) (arguments : Arguments) (store : Store),
      parse words = some (.run arguments) →
      (∀ documents error, arguments.types.mapM store.readDefinitions = .ok documents →
        (run words store).ending = .error error →
        arguments.config.LeavesBehind documents.flatten store .empty error
          (run words store).store) ∧
      (∀ path ∈ arguments.types, ∀ problem, store.readDefinitions path = .error problem →
        (∃ found, (run words store).ending = .error (.document found)) ∧
          (run words store).store = store)) := by
  refine ⟨fun config definitions before after error hext h => Config.run_error hext h, ?_⟩
  intro words arguments store hwords
  have hrun : run words store = arguments.run store := by
    unfold run
    rw [hwords]
  rw [hrun]
  constructor
  · intro documents error hdocuments hending
    exact Arguments.run_error hdocuments hending
  · intro path hpath problem hproblem
    exact Arguments.run_of_unreadable hpath hproblem

/-- Two messages. -/
def twoDefinitions : List Definition :=
  [.message "a.B" none (.empty false), .message "D" none (.empty false)]

/-- A store with a directory in the place of the second header, and a cached template. -/
def occupiedWorkspace : Workspace where
  store := ⟨[(["out"], .directory), (["out", "D.hpp"], .directory)], []⟩
  cache := ⟨[⟨0, ⟨"t", [.text "x "]⟩⟩], 1⟩
  log := []

/-- The run that stops at the second of them. -/
def stoppingConfig : Config :=
  { output := "out", template := "t" }

/-- The run writes the first header and stops at the second one. The command stops at a document
that is not there. -/
theorem failure_leaves_behind_occupied :
    (∃ after,
      stoppingConfig.run twoDefinitions occupiedWorkspace =
        (.error (.failed ⟨"D", .write ⟨"/out/D.hpp", .isDirectory⟩⟩), after) ∧
      stoppingConfig.LeavesBehind twoDefinitions occupiedWorkspace.store occupiedWorkspace.cache
        (.failed ⟨"D", .write ⟨"/out/D.hpp", .isDirectory⟩⟩) after.store) ∧
    (run ["-t", "d.xml", "--template", "t"] ⟨[], []⟩).store = ⟨[], []⟩ := by
  constructor
  · have hreport : (stoppingConfig.run twoDefinitions occupiedWorkspace).1 =
        .error (.failed ⟨"D", .write ⟨"/out/D.hpp", .isDirectory⟩⟩) := by
      decide +kernel
    rcases hrun : stoppingConfig.run twoDefinitions occupiedWorkspace with ⟨result, after⟩
    rw [hrun] at hreport
    obtain rfl : result = _ := hreport
    exact ⟨after, rfl, failure_leaves_behind.1 _ _ _ _ _ (by decide) hrun⟩
  · refine ((failure_leaves_behind.2 ["-t", "d.xml", "--template", "t"]
      ⟨["d.xml"], "t", defaultOutput, false, false, false⟩ ⟨[], []⟩ ?_).2 "d.xml" ?_
      (.unreadable .missing) ?_).2
    · decide
    · decide
    · rfl

end CommandLine

end DsdlHeaders
