import DsdlHeaders.Proofs.Generation.Independence
import DsdlHeaders.Proofs.Generation.Preview
import DsdlHeaders.Proofs.Header.Guard
import DsdlHeaders.Proofs.Header.Includes

/-!
# Includes and the headers of a run

A header includes the headers of the compound types inside its fields. When a run generates these as
well, every include path leads to the file that the run writes.

* **What is included** (`Definition.IncludesTargets`) is said by the fields alone.
* **Where it is** (`Config.run_entries`): all entries of a run lie below the output directory, where
  the full names of their definitions say, and after a run that writes headers the files are there.
  Include paths spell the same places (`Definition.includePath_eq_outputPath`).
-/

namespace DsdlHeaders

/-- What is included for a definition: the header paths of the compound types inside the arrays of
its fields, ascending in byte order. -/
structure Definition.IncludesTargets (definition : Definition) (extension : String)
    (includes : List String) : Prop where
  ascending : includes.Pairwise fun first second => Text.bytes first < Text.bytes second
  members : ∀ path, path ∈ includes ↔ ∃ body ∈ definition.bodies, ∃ field ∈ body.fields,
    ∃ target, field.type.innermost = .compound target ∧ target.includePath extension = path

/-- The include list of a definition is what is included for it. -/
theorem Definition.includesTargets (definition : Definition) (extension : String) :
    definition.IncludesTargets extension (definition.includes extension) := by
  refine ⟨definition.pairwise_bytes_includes extension, fun path => ?_⟩
  rw [mem_includes]
  constructor
  · rintro ⟨target, htarget, hpath⟩
    obtain ⟨body, hbody, field, hfield, htype⟩ := mem_referenced.mp htarget
    exact ⟨body, hbody, field, hfield, target, htype, hpath⟩
  · rintro ⟨body, hbody, field, hfield, target, htype, hpath⟩
    exact ⟨target, mem_referenced.mpr ⟨body, hbody, field, hfield, htype⟩, hpath⟩

/-- With an extension, an include path is the path of a header. -/
theorem Definition.includePath_eq_outputPath {definition : Definition} {extension : String}
    (h : isFullName definition.fullName = true) (hext : extension ≠ "") :
    definition.includePath extension = definition.outputPath extension := by
  rw [includePath_eq extension h, if_neg hext]

/-- Where a header goes depends only on the full name. -/
theorem Definition.outputPath_eq_of_fullName_eq {definition other : Definition}
    (h : definition.fullName = other.fullName) (extension : String) :
    definition.outputPath extension = other.outputPath extension := by
  rw [outputPath, outputPath, components, components, h]

namespace Config

variable {config : Config} {folder : String} {definitions : List Definition}
  {before after : Workspace} {summary : Summary}

/-- The entries of a run lie where the headers of definitions go. If the run writes headers, they
are there. -/
theorem run_entries (hslash : '/' ∉ config.extension.toList)
    (h : config.run definitions before = (.ok summary, after)) :
    Valid definitions ∧ ∃ folder,
      Path.absolute? before.store.currentPath config.output = some folder ∧
      ∀ entry ∈ summary.entries, (∃ definition ∈ definitions,
        entry.fullName = definition.fullName ∧
        entry.path = config.headerPath folder definition) ∧
        (config.dryRun = false → ∃ bytes, after.store.read entry.path = .ok bytes) := by
  cases hrefusal : config.refusal? definitions with
  | some error =>
    obtain ⟨log, hrun⟩ := config.run_of_refusal hrefusal before
    rw [hrun] at h
    exact absurd (Prod.mk.inj h).1 (by simp)
  | none =>
    obtain ⟨hne, hvalid, folder, hfolder⟩ :=
      exists_folder_of_refusal?_eq_none hrefusal before.store.currentPath
    refine ⟨hvalid, folder, hfolder, ?_⟩
    cases hdry : config.dryRun with
    | true =>
      obtain ⟨found, log, hfound, hrun⟩ := config.run_of_dryRun_true hdry hrefusal before
      rw [hfolder, Option.some.injEq] at hfound
      subst hfound
      rw [h] at hrun
      rw [Except.ok.inj (Prod.mk.inj hrun).1]
      intro entry hentry
      obtain ⟨definition, hdefinition, rfl⟩ := List.mem_map.mp hentry
      exact ⟨⟨definition, hdefinition, by rw [dryEntry], by rw [dryEntry]⟩,
        fun hreal => absurd hreal (by decide)⟩
    | false =>
      rw [run_eq_generateBelow config hne hvalid hdry hfolder] at h
      obtain ⟨cached, -, hdelivers⟩ := delivers_of_generateBelow hslash hvalid h
      intro entry hentry
      obtain ⟨definition, hdefinition, hname, hpath, -, text, -, -, hread⟩ :=
        hdelivers.headers entry hentry
      refine ⟨⟨definition, hdefinition, hname, ?_⟩, fun _ => ⟨_, hread⟩⟩
      rw [hpath, headerPath,
        Definition.outputPath_eq _ (hvalid.each definition hdefinition).name]
      rfl

/-- The include path of what a run generates leads to its header, and to no other one. -/
theorem path_eq_push_includePath_iff (hvalid : Valid definitions)
    (hslash : '/' ∉ config.extension.toList) (hext : config.extension ≠ "") {target : Definition}
    (htarget : target.fullName ∈ definitions.map Definition.fullName) {entry : Entry}
    (hentry : ∃ definition ∈ definitions, entry.fullName = definition.fullName ∧
      entry.path = config.headerPath folder definition) :
    entry.path = Path.push folder (target.includePath config.extension) ↔
      entry.fullName = target.fullName := by
  obtain ⟨named, hnamed, hsame⟩ := List.mem_map.mp htarget
  obtain ⟨definition, hdefinition, hname, hpath⟩ := hentry
  have hproper : isFullName target.fullName = true := hsame ▸ (hvalid.each named hnamed).name
  rw [Definition.includePath_eq_outputPath hproper hext, hname, hpath]
  constructor
  · exact headerPath_injective (hvalid.each definition hdefinition).name hproper hslash
  · intro h
    rw [headerPath, Definition.outputPath_eq_of_fullName_eq h]

end Config

/-- **Includes name the headers that are written.** The include list of a context is ascending in
byte order and consists of the header paths of the compound types inside the fields of all bodies;
so it is the same whenever all fields together are the same, in whatever order and whichever body.
For a proper full name the include path is the path of the header below the output directory, with
one dot more at the end if there is no extension. With an extension, the include path of what the
same run generates leads to the entry of that name and to no other one, and if the run writes
headers, the file is there. An extension is part of a name, so it holds no slash. -/
theorem includes_match_headers (extension : String) :
    (∀ definition : Definition,
      definition.IncludesTargets extension (definition.includes extension) ∧
      (∀ context, definition.context extension = .ok context →
        context.names.includes = definition.includes extension) ∧
      ∀ other : Definition,
        (other.bodies.flatMap Body.fields).Perm (definition.bodies.flatMap Body.fields) →
          other.includes extension = definition.includes extension) ∧
    ('/' ∉ extension.toList → ∀ definition : Definition, isFullName definition.fullName = true →
      definition.includePath extension =
        if extension = "" then definition.outputPath extension ++ "."
        else definition.outputPath extension) ∧
    (extension ≠ "" → '/' ∉ extension.toList →
      ∀ (config : Config) (definitions : List Definition) (before after : Workspace)
        (summary : Summary), config.extension = extension →
        config.run definitions before = (.ok summary, after) →
        ∃ folder, Path.absolute? before.store.currentPath config.output = some folder ∧
          ∀ definition ∈ definitions, ∀ target ∈ definition.referenced,
            target.fullName ∈ definitions.map Definition.fullName →
            target.includePath extension ∈ definition.includes extension ∧
            ∀ entry ∈ summary.entries,
              (entry.path = Path.push folder (target.includePath extension) ↔
                entry.fullName = target.fullName) ∧
              (config.dryRun = false → entry.fullName = target.fullName → ∃ bytes,
                after.store.read (Path.push folder (target.includePath extension)) =
                  .ok bytes)) := by
  refine ⟨fun definition => ⟨definition.includesTargets extension, ?_, ?_⟩, ?_, ?_⟩
  · intro context hcontext
    rw [Definition.names_of_context hcontext]
    rfl
  · exact fun other hperm => Definition.includes_eq_of_perm hperm extension
  · exact fun _ definition hname => Definition.includePath_eq extension hname
  · rintro hext hslash config definitions before after summary rfl hrun
    obtain ⟨hvalid, folder, hfolder, hentries⟩ := Config.run_entries hslash hrun
    refine ⟨folder, hfolder, fun definition _ target htarget hname =>
      ⟨Definition.mem_includes.mpr ⟨target, htarget, rfl⟩, fun entry hentry => ?_⟩⟩
    obtain ⟨hwhere, hwritten⟩ := hentries entry hentry
    have hiff := Config.path_eq_push_includePath_iff hvalid hslash hext hname hwhere
    exact ⟨hiff, fun hdry hsame => hiff.mpr hsame ▸ hwritten hdry⟩

/-- A body that refers to two types, to one of them in an array. -/
def referringBody : Body :=
  .mk [.mk (some "last") (.compound (.reference "zeta.Last")),
    .mk (some "first") (.array (.compound (.reference "alpha.First")) (.dynamic 3))] [] false

/-- A body that refers to a type in an array of arrays. -/
def nestingBody : Body :=
  .mk [.mk (some "last")
    (.array (.array (.compound (.reference "zeta.Last")) (.static 2)) (.static 2))] [] false

/-- The includes of a service stay the same when its bodies are swapped, and in a run over a
definition and one that refers to it, the include path leads to the header that was written. -/
theorem includes_match_headers_resolved :
    (∃ context, (Definition.service "s.Q" none referringBody nestingBody).context defaultExtension =
        .ok context ∧ context.names.includes = ["alpha/First.hpp", "zeta/Last.hpp"] ∧
      (Definition.service "s.Q" none nestingBody referringBody).includes defaultExtension =
        context.names.includes) ∧
    Config.innerDefinition.includePath defaultExtension =
      Config.innerDefinition.outputPath defaultExtension ∧
    ∃ summary after folder,
      Config.freshConfig.run Config.resolvedDefinitions Config.freshWorkspace =
        (.ok summary, after) ∧
      ∃ entry ∈ summary.entries, entry.fullName = "c.D" ∧
        entry.path = Path.push folder (Config.innerDefinition.includePath defaultExtension) ∧
        ∃ bytes, after.store.read entry.path = .ok bytes := by
  obtain ⟨hlists, hspelled, hleads⟩ := includes_match_headers defaultExtension
  refine ⟨?_, ?_, ?_⟩
  · obtain ⟨-, hcontext, hswapped⟩ :=
      hlists (.service "s.Q" none referringBody nestingBody)
    refine ⟨_, rfl, by decide +kernel, ?_⟩
    have hsame : (nestingBody.fields ++ referringBody.fields).Perm
        (referringBody.fields ++ nestingBody.fields) := List.perm_append_comm
    rw [hcontext _ rfl]
    exact hswapped _ hsame
  · exact (hspelled (by decide) Config.innerDefinition (by decide)).trans (if_neg (by decide))
  · have hreport : (Config.freshConfig.run Config.resolvedDefinitions
        Config.freshWorkspace).1.toOption.map (fun summary => summary.entries.map Entry.fullName) =
        some ["c.D", "a.B"] := by
      decide +kernel
    rcases hrun : Config.freshConfig.run Config.resolvedDefinitions Config.freshWorkspace with
      ⟨_ | summary, after⟩
    · exact absurd hreport (by simp [hrun, Except.toOption])
    rw [hrun] at hreport
    have hnames : summary.entries.map Entry.fullName = ["c.D", "a.B"] := Option.some.inj hreport
    obtain ⟨folder, -, hincluded⟩ := hleads (by decide) (by decide) _ _ _ _ _ rfl hrun
    obtain ⟨-, hentries⟩ := hincluded (Config.outerDefinition Config.innerDefinition)
      (by simp [Config.resolvedDefinitions]) Config.innerDefinition (List.mem_singleton.mpr rfl)
      List.mem_cons_self
    obtain ⟨entry, hentry, hname⟩ : ∃ entry ∈ summary.entries, entry.fullName = "c.D" :=
      List.mem_map.mp (hnames ▸ List.mem_cons_self)
    obtain ⟨hiff, hthere⟩ := hentries entry hentry
    have hpath := hiff.mpr hname
    exact ⟨summary, after, folder, rfl, entry, hentry, hname, hpath, hpath ▸ hthere rfl hname⟩

end DsdlHeaders
