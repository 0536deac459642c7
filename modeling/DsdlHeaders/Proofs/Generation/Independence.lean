import DsdlHeaders.Proofs.Generation.Regeneration
import DsdlHeaders.Proofs.Header.Independence

/-!
# A header depends only on its own definition

Two runs may list the same definitions in another order, read them from other documents, resolve
references in one and leave them open in the other, write to other directories and start from other
stores and caches. If the template and the extension are the same and neither run fails for a
definition, each full name has the same header in both (`run_headers_agree`).

* **Lists**: `Rearranged` relates lists that hold the same definitions, alike but for their
  references, in any order.
* **Templates**: `Workspace.HasTemplate` says which text a run's template has, whether the run
  compiles it or finds it in its cache. Equal texts are compiled to equal bodies, and an expansion
  depends on nothing else (`expand_eq_of_hasTemplate`).
* **Headers**: after a run without failures the header of a name is the expansion for the definition
  of that name, whatever else the run did (`hasHeader_iff`).
-/

namespace DsdlHeaders

/-! ## The same definitions -/

/-- The same definitions in any order, alike but for what their references carry. -/
def Rearranged (definitions others : List Definition) : Prop :=
  ∃ middle, List.Forall₂ Definition.Alike definitions middle ∧ middle.Perm others

/-- Every definition is found again after rearranging. -/
theorem Rearranged.exists_right {definitions others : List Definition}
    (h : Rearranged definitions others) :
    ∀ definition ∈ definitions, ∃ other ∈ others, definition.Alike other := by
  obtain ⟨middle, halike, hperm⟩ := h
  intro definition hdefinition
  obtain ⟨other, hother, hsame⟩ := exists_right_of_forall₂ halike definition hdefinition
  exact ⟨other, hperm.subset hother, hsame⟩

/-- Rearranging brings in no definition of its own. -/
theorem Rearranged.exists_left {definitions others : List Definition}
    (h : Rearranged definitions others) :
    ∀ other ∈ others, ∃ definition ∈ definitions, definition.Alike other := by
  obtain ⟨middle, halike, hperm⟩ := h
  intro other hother
  exact exists_left_of_forall₂ halike other (hperm.symm.subset hother)

/-! ## The same template -/

/-- The text of the template at a path: the text of its file when it has yet to be compiled, and a
text that it was compiled from when it is in the cache. -/
def Workspace.HasTemplate (workspace : Workspace) (path text : String) : Prop :=
  match workspace.cache.find? path with
  | none => workspace.store.readText path = .ok text
  | some cached => Template.compile cached.template.path text.toList = .ok cached.template

/-- A template that has yet to be compiled has the text of its file. -/
theorem Workspace.hasTemplate_of_readText {workspace : Workspace} {path text : String}
    (hfind : workspace.cache.find? path = none) (hread : workspace.store.readText path = .ok text) :
    workspace.HasTemplate path text := by
  rw [HasTemplate, hfind]
  exact hread

/-- The template that a run gets is compiled from the text of the template. -/
theorem Workspace.HasTemplate.compiled {workspace : Workspace} {path text : String}
    {cached : Template.Cached} (h : workspace.HasTemplate path text)
    (hget : (workspace.cache.get workspace.store path).1 = .ok cached) :
    ∃ origin, Template.compile origin text.toList = .ok cached.template := by
  rcases Template.Cache.get_cases (Prod.ext hget rfl) with ⟨hfind, -⟩ | ⟨hfind, hfile, -⟩
  · rw [HasTemplate, hfind] at h
    exact ⟨_, h⟩
  · rw [HasTemplate, hfind] at h
    simp only [Template.compileFile, Template.readSource, h, Template.compileSource] at hfile
    split at hfile
    · exact absurd hfile (by simp)
    · rename_i template hcompile
      obtain rfl := Except.ok.inj hfile
      exact ⟨path, hcompile⟩

/-- Where a template comes from does not matter for what it expands to. -/
theorem expand_eq_of_compile {path other : String} {source : List Char}
    {template again : Template.Compiled} (h : Template.compile path source = .ok template)
    (h' : Template.compile other source = .ok again) (context : Context) :
    template.expand context = again.expand context := by
  unfold Template.compile at h h'
  cases hlowered : Template.Primitive.lowered (Template.Extended.toPrimitive source) with
  | error error => exact absurd h (by simp [hlowered])
  | ok text =>
    cases hbody : Template.statements text with
    | none => exact absurd h (by simp [hlowered, hbody])
    | some body =>
      simp only [hlowered, hbody] at h h'
      obtain rfl := Except.ok.inj h
      obtain rfl := Except.ok.inj h'
      rfl

/-- A store holds these bytes where a run reports the header of a name. -/
def Summary.HasHeader (summary : Summary) (store : Store) (name : String) (bytes : ByteArray) :
    Prop :=
  ∃ entry ∈ summary.entries, entry.fullName = name ∧ store.read entry.path = .ok bytes

namespace Config

/-- Runs whose templates have the same text expand them alike. -/
theorem expand_eq_of_hasTemplate {first second : Config} {before start : Workspace}
    {text : String} {cached other : Template.Cached}
    (h : before.HasTemplate first.template text)
    (h' : start.HasTemplate second.template text)
    (hget : (before.cache.get before.store first.template).1 = .ok cached)
    (hget' : (start.cache.get start.store second.template).1 = .ok other) (context : Context) :
    cached.template.expand context = other.template.expand context := by
  obtain ⟨origin, hcompiled⟩ := h.compiled hget
  obtain ⟨origin', hcompiled'⟩ := h'.compiled hget'
  exact expand_eq_of_compile hcompiled hcompiled' context

/-! ## The headers of a run -/

variable {config : Config} {definitions : List Definition} {before after : Workspace}
  {summary : Summary}

/-- A run that is no dry run and returns a summary delivers, with the template that it finds. -/
theorem delivers_of_run (hdry : config.dryRun = false) (hext : '/' ∉ config.extension.toList)
    (h : config.run definitions before = (.ok summary, after)) : ∃ folder cached,
      (before.cache.get before.store config.template).1 = .ok cached ∧
      config.Delivers definitions before.store folder cached.template summary after.store := by
  rcases run_cases h with ⟨hresult, -⟩ | ⟨error, hresult, -⟩ | ⟨fault, hresult, -⟩ |
    ⟨found, -, hsaid, -, -, -⟩ | ⟨folder, -, hvalid, -, -, hbelow⟩
  · exact absurd hresult (by simp)
  · exact absurd hresult (by simp)
  · exact absurd hresult (by simp)
  · exact absurd (hdry.symm.trans hsaid) (by simp)
  · have hdelivers := delivers_of_generateBelow hext hvalid hbelow
    exact ⟨folder, hdelivers⟩

/-- After a run without failures every full name has an entry. -/
theorem Delivers.exists_entry {folder : String} {template : Template.Compiled}
    {start store : Store} {name : String}
    (h : config.Delivers definitions start folder template summary store)
    (hnone : summary.failures = []) (hname : name ∈ definitions.map Definition.fullName) :
    ∃ entry ∈ summary.entries, entry.fullName = name := by
  have honce : (summary.entries.map Entry.fullName).Perm
      (definitions.map Definition.fullName) := by
    simpa [hnone] using h.once
  exact List.mem_map.mp (honce.symm.subset hname)

/-- After a run without failures, the header of a name is the expansion for the definition of that
name, and nothing else. -/
theorem hasHeader_iff {folder : String} {template : Template.Compiled} {start store : Store}
    (h : config.Delivers definitions start folder template summary store)
    (hnone : summary.failures = []) (name : String) (bytes : ByteArray) :
    summary.HasHeader store name bytes ↔ ∃ definition ∈ definitions,
      definition.fullName = name ∧ ∃ context text,
        definition.context config.extension = .ok context ∧
        template.expand context = .ok text ∧ (normalize text).toUTF8 = bytes := by
  constructor
  · rintro ⟨entry, hentry, rfl, hread⟩
    obtain ⟨definition, hdefinition, hname, -, context, text, hcontext, htext, hwritten⟩ :=
      h.headers entry hentry
    exact ⟨definition, hdefinition, hname.symm, context, text, hcontext, htext,
      Except.ok.inj (hwritten.symm.trans hread)⟩
  · rintro ⟨definition, hdefinition, rfl, context, text, hcontext, htext, rfl⟩
    -- nothing failed, so the name has an entry, and the entry stands for this definition
    obtain ⟨entry, hentry, hname⟩ :=
      h.exists_entry hnone (List.mem_map_of_mem hdefinition)
    obtain ⟨found, hfound, hfullName, -, context', text', hcontext', htext', hread⟩ :=
      h.headers entry hentry
    obtain rfl : found = definition :=
      List.inj_on_of_nodup_map h.distinct hfound hdefinition (hfullName.symm.trans hname)
    obtain rfl := Except.ok.inj (hcontext.symm.trans hcontext')
    obtain rfl := Except.ok.inj (htext.symm.trans htext')
    exact ⟨entry, hentry, hname, hread⟩

/-- **A header depends only on its own definition.** Let two runs that are no dry runs go over the
same definitions, in any order and alike but for what their references carry, with the same template
text and the same extension, and let neither of them fail for a definition. Then every full name has
a header, and it has the same bytes after both runs. An extension is part of a name, so it holds no
slash. -/
theorem run_headers_agree {first second : Config} {definitions others : List Definition}
    {before after otherBefore otherAfter : Workspace} {summary otherSummary : Summary}
    {text : String} (hsame : Rearranged definitions others)
    (hdry : first.dryRun = false) (hdry' : second.dryRun = false)
    (hextension : first.extension = second.extension) (hslash : '/' ∉ first.extension.toList)
    (htext : before.HasTemplate first.template text)
    (htext' : otherBefore.HasTemplate second.template text)
    (h : first.run definitions before = (.ok summary, after))
    (h' : second.run others otherBefore = (.ok otherSummary, otherAfter))
    (hnone : summary.failures = []) (hnone' : otherSummary.failures = []) :
    (∀ name ∈ definitions.map Definition.fullName,
      ∃ bytes, summary.HasHeader after.store name bytes) ∧
    ∀ name bytes, summary.HasHeader after.store name bytes ↔
      otherSummary.HasHeader otherAfter.store name bytes := by
  obtain ⟨folder, cached, hcached, hdelivers⟩ := delivers_of_run hdry hslash h
  obtain ⟨folder', cached', hcached', hdelivers'⟩ :=
    delivers_of_run hdry' (hextension ▸ hslash) h'
  have hexpand := expand_eq_of_hasTemplate htext htext' hcached hcached'
  refine ⟨?_, ?_⟩
  · intro name hname
    obtain ⟨entry, hentry, rfl⟩ := hdelivers.exists_entry hnone hname
    obtain ⟨-, -, -, -, context, text, -, -, hread⟩ := hdelivers.headers entry hentry
    exact ⟨_, entry, hentry, rfl, hread⟩
  · intro name bytes
    rw [hasHeader_iff hdelivers hnone, hasHeader_iff hdelivers' hnone']
    constructor
    · rintro ⟨definition, hdefinition, rfl, context, text, hcontext, hexpanded, rfl⟩
      obtain ⟨other, hother, halike⟩ := hsame.exists_right definition hdefinition
      refine ⟨other, hother, halike.fullName_eq.symm, context, text, ?_, ?_, rfl⟩
      · rw [← halike.context_eq, ← hextension]
        exact hcontext
      · rw [← hexpand]
        exact hexpanded
    · rintro ⟨other, hother, rfl, context, text, hcontext, hexpanded, rfl⟩
      obtain ⟨definition, hdefinition, halike⟩ := hsame.exists_left other hother
      refine ⟨definition, hdefinition, halike.fullName_eq, context, text, ?_, ?_, rfl⟩
      · rw [halike.context_eq, hextension]
        exact hcontext
      · rw [hexpand]
        exact hexpanded

/-- A message that others refer to. -/
def innerDefinition : Definition :=
  .message "c.D" none (.mk [.mk (some "x") (.primitive ⟨.unsigned, 8, .saturated⟩)] [] false)

/-- A message with an array of what it refers to. -/
def outerDefinition (target : Definition) : Definition :=
  .message "a.B" (some 7) (.mk [.mk (some "d") (.array (.compound target) (.static 2))] [] false)

/-- A definition, and one that refers to it and carries it. -/
def resolvedDefinitions : List Definition :=
  [innerDefinition, outerDefinition innerDefinition]

/-- A definition with an open reference, and what it refers to. -/
def openDefinitions : List Definition :=
  [outerDefinition (.reference "c.D"), innerDefinition]

/-- A template that shows the name and the includes of a definition. -/
def namesTemplate : String := "${t.unique_id} ${t.includes}\n"

/-- A run to a directory that is missing. -/
def freshConfig : Config :=
  { output := "out", template := "t" }

/-- A store with the template and nothing else. -/
def freshWorkspace : Workspace where
  store := ⟨[(["t"], .file namesTemplate.toUTF8 0o644)], []⟩
  cache := .empty
  log := []

/-- A run to the current directory that goes on after failures. -/
def usedConfig : Config :=
  { output := ".", template := "u", policy := .proceed }

/-- A store with the template elsewhere and an old header, seen from a directory. -/
def usedWorkspace : Workspace where
  store := ⟨[(["k"], .directory), (["k", "u"], .file namesTemplate.toUTF8 0o600),
    (["k", "a"], .directory), (["k", "a", "B.hpp"], .file "old".toUTF8 0o644)], ["k"]⟩
  cache := .empty
  log := []

/-- A resolved reference after its definition, and an open one before it, have the same header. -/
theorem run_headers_agree_references : ∃ summary after otherSummary otherAfter,
    Rearranged resolvedDefinitions openDefinitions ∧
    freshConfig.run resolvedDefinitions freshWorkspace = (.ok summary, after) ∧
    usedConfig.run openDefinitions usedWorkspace = (.ok otherSummary, otherAfter) ∧
    summary.paths = ["/out/c/D.hpp", "/out/a/B.hpp"] ∧
    otherSummary.paths = ["/k/a/B.hpp", "/k/c/D.hpp"] ∧
    ∃ bytes, summary.HasHeader after.store "a.B" bytes ∧
      otherSummary.HasHeader otherAfter.store "a.B" bytes := by
  have hsame : Rearranged resolvedDefinitions openDefinitions := by
    refine ⟨[innerDefinition, outerDefinition (.reference "c.D")], ?_, .swap _ _ _⟩
    refine .cons (.message _ _ ⟨.cons ⟨rfl, .primitive _⟩ .nil, rfl, rfl⟩) (.cons ?_ .nil)
    exact .message _ _ ⟨.cons ⟨rfl, .array _ (.compound rfl)⟩ .nil, rfl, rfl⟩
  have hreport : (freshConfig.run resolvedDefinitions freshWorkspace).1.toOption.map
      (fun summary => (summary.paths, summary.failures)) =
      some (["/out/c/D.hpp", "/out/a/B.hpp"], []) := by
    decide +kernel
  have hreport' : (usedConfig.run openDefinitions usedWorkspace).1.toOption.map
      (fun summary => (summary.paths, summary.failures)) =
      some (["/k/a/B.hpp", "/k/c/D.hpp"], []) := by
    decide +kernel
  have htext : freshWorkspace.HasTemplate freshConfig.template namesTemplate :=
    Workspace.hasTemplate_of_readText rfl (by decide +kernel)
  have htext' : usedWorkspace.HasTemplate usedConfig.template namesTemplate :=
    Workspace.hasTemplate_of_readText rfl (by decide +kernel)
  rcases hrun : freshConfig.run resolvedDefinitions freshWorkspace with ⟨_ | summary, after⟩
  · exact absurd hreport (by simp [hrun, Except.toOption])
  rcases hrun' : usedConfig.run openDefinitions usedWorkspace with ⟨_ | otherSummary, otherAfter⟩
  · exact absurd hreport' (by simp [hrun', Except.toOption])
  simp only [hrun, hrun', Except.toOption, Option.map_some, Option.some.injEq,
    Prod.mk.injEq] at hreport hreport'
  have hextension : freshConfig.extension = usedConfig.extension := rfl
  have hagree := run_headers_agree hsame rfl rfl hextension (by decide) htext htext' hrun hrun'
    hreport.2 hreport'.2
  have hlisted : "a.B" ∈ resolvedDefinitions.map Definition.fullName :=
    List.mem_map.mpr ⟨outerDefinition innerDefinition, by simp [resolvedDefinitions], rfl⟩
  obtain ⟨bytes, hheader⟩ := hagree.1 "a.B" hlisted
  exact ⟨summary, after, otherSummary, otherAfter, hsame, rfl, rfl, hreport.1, hreport'.1, bytes,
    hheader, (hagree.2 _ _).mp hheader⟩

end Config

end DsdlHeaders
