import DsdlHeaders.Header.Context
import DsdlHeaders.Proofs.Store.Steps

/-!
# Where headers go

The header of a definition goes to a file that is named after the definition's short name, in the
directories that are named after the parts of its full name before that.

* **Names** (`headerNames`): `outputPath_eq` spells the path of a header as these names with
  separators in between.
* **Distinct headers**: definitions with different full names have different header names
  (`headerNames_injective`). The place that a header's path leads to ends in these names
  (`destination_push_outputPath`), so below one directory headers never share a place.

All this needs a proper full name, and of the extension that it holds no separator.
-/

namespace DsdlHeaders

namespace Definition

/-- The name of the file that a definition's header goes to. -/
def fileName (definition : Definition) (extension : String) : String :=
  definition.shortName ++ if extension = "" then "" else "." ++ extension

/-- The names that lead from the output directory to the header of a definition. -/
def headerNames (definition : Definition) (extension : String) : List String :=
  definition.spaces ++ [definition.fileName extension]

/-- The short name is the last part of the full name. -/
theorem components_eq (definition : Definition) :
    definition.components = definition.spaces ++ [definition.shortName] := by
  unfold components nameComponents spaces shortName
  cases hcut : Text.cutLast? '.' definition.fullName.toList with
  | none =>
    rw [Text.splitOn_of_not_mem (Text.not_mem_of_cutLast?_eq_none hcut)]
    simp
  | some parts =>
    obtain ⟨outer, short⟩ := parts
    rw [Text.splitOn_eq_of_cutLast? hcut]
    simp

/-- The full name is determined by its parts. -/
theorem fullName_eq_of_components_eq {first second : Definition}
    (h : first.components = second.components) : first.fullName = second.fullName := by
  have hparts : Text.splitOn '.' first.fullName.toList = Text.splitOn '.' second.fullName.toList :=
    List.map_injective_iff.mpr (fun _ _ heq => String.ofList_injective heq) h
  exact String.ext (Text.splitOn_injective '.' hparts)

/-- The header names determine the full name. -/
theorem headerNames_injective {first second : Definition} {extension : String}
    (h : first.headerNames extension = second.headerNames extension) :
    first.fullName = second.fullName := by
  obtain ⟨hspaces, hfile⟩ := List.append_inj' h rfl
  apply fullName_eq_of_components_eq
  rw [components_eq, components_eq, hspaces]
  congr 1
  have hchars := congrArg String.toList (List.singleton_inj.mp hfile)
  simp only [fileName, String.toList_append] at hchars
  rw [String.ext (List.append_cancel_right hchars)]

/-! ## Identifiers as names -/

/-- The parts of a proper full name are identifiers. -/
theorem isIdentifier_of_mem_components {definition : Definition}
    (h : isFullName definition.fullName = true) {part : String}
    (hpart : part ∈ definition.components) : Text.isIdentifier part.toList = true := by
  obtain ⟨chars, hchars, rfl⟩ := List.mem_map.mp hpart
  rw [String.toList_ofList]
  exact List.all_eq_true.mp h chars hchars

/-- An identifier with anything but a separator after it is a name. -/
theorem isName_append {part suffix : List Char} (h : Text.isIdentifier part = true)
    (hsuffix : '/' ∉ suffix) : Path.IsName (part ++ suffix) := by
  have hdot : '.' ∉ part := Text.not_mem_of_isIdentifier h (by decide)
  have hslash : '/' ∉ part := Text.not_mem_of_isIdentifier h (by decide)
  rcases part with _ | ⟨c, part⟩
  · simp [Text.isIdentifier] at h
  · have hc : c ≠ '.' := fun hc => hdot (by simp [hc])
    exact ⟨by simp, by simp [hc], by simp [hc], by simp_all⟩

/-- An identifier is a name. -/
theorem isName_of_isIdentifier {part : List Char} (h : Text.isIdentifier part = true) :
    Path.IsName part := by
  have hname : Path.IsName (part ++ []) := isName_append h (by simp)
  rwa [List.append_nil] at hname

/-- What follows the short name in the name of a header. -/
theorem toList_fileName (definition : Definition) (extension : String) :
    (definition.fileName extension).toList = definition.shortName.toList ++
      if extension = "" then [] else '.' :: extension.toList := by
  unfold fileName
  split_ifs <;> simp

/-- The names that lead to a header are names. -/
theorem isName_of_mem_headerNames {definition : Definition} {extension : String}
    (h : isFullName definition.fullName = true) (hext : '/' ∉ extension.toList) {name : String}
    (hname : name ∈ definition.headerNames extension) : Path.IsName name.toList := by
  have hparts : ∀ part ∈ definition.spaces ++ [definition.shortName],
      Text.isIdentifier part.toList = true := fun part hpart =>
    isIdentifier_of_mem_components h (definition.components_eq ▸ hpart)
  rcases List.mem_append.mp hname with hspace | hfile
  · exact isName_of_isIdentifier (hparts name (by simp [hspace]))
  · obtain rfl := List.mem_singleton.mp hfile
    rw [toList_fileName]
    apply isName_append (hparts _ (by simp))
    split_ifs
    · simp
    · simp [hext]

/-! ## The path of a header -/

/-- The path of a header, as characters. -/
theorem outputPath_eq_joinWith {definition : Definition} (extension : String)
    (h : isFullName definition.fullName = true) :
    definition.outputPath extension = String.ofList
      (Text.joinWith ['/'] ((definition.headerNames extension).map String.toList)) := by
  have hidentifier : ∀ part ∈ definition.components, Text.isIdentifier part.toList = true :=
    fun part hpart => isIdentifier_of_mem_components h hpart
  have hshort : Text.isIdentifier definition.shortName.toList = true :=
    hidentifier _ (by simp [components_eq])
  have hpieces : Path.ofPieces definition.components = String.ofList
      (Text.joinWith ['/'] (definition.components.map String.toList)) := by
    rw [← Path.ofPieces_eq_joinWith]
    · simp [List.map_map, Function.comp_def]
    · intro name hname
      obtain ⟨part, hpart, rfl⟩ := List.mem_map.mp hname
      exact isName_of_isIdentifier (hidentifier part hpart)
  rw [outputPath, hpieces, components_eq, headerNames, List.map_append, List.map_singleton,
    Path.withExtension_joinWith (isName_of_isIdentifier hshort)
      (Text.not_mem_of_isIdentifier hshort (by decide)),
    List.map_append, List.map_singleton, toList_fileName]

/-- The path of a header is its names with separators in between. -/
theorem outputPath_eq {definition : Definition} (extension : String)
    (h : isFullName definition.fullName = true) :
    definition.outputPath extension =
      String.intercalate "/" (definition.headerNames extension) := by
  rw [outputPath_eq_joinWith extension h, Text.joinWith_eq_intercalate]
  apply String.ext
  simp [String.toList_intercalate]

/-- The steps to a header below a directory. -/
theorem steps_push_outputPath {definition : Definition} {extension : String}
    (h : isFullName definition.fullName = true) (hext : '/' ∉ extension.toList)
    (folder : String) :
    Path.steps (Path.push folder (definition.outputPath extension)) =
      Path.steps folder ++ (definition.headerNames extension).map .entry := by
  rw [outputPath_eq_joinWith extension h, Path.steps_push_joinWith]
  · simp [List.map_map, Function.comp_def]
  · simp [headerNames]
  · intro name hname
    obtain ⟨part, hpart, rfl⟩ := List.mem_map.mp hname
    exact isName_of_mem_headerNames h hext hpart

/-- The place of a header below a directory. -/
theorem destination_push_outputPath {definition : Definition} {extension : String}
    (h : isFullName definition.fullName = true) (hext : '/' ∉ extension.toList)
    (current : Place) (folder : String) :
    Path.destination current
        (Path.steps (Path.push folder (definition.outputPath extension))) =
      Path.destination current (Path.steps folder) ++ definition.headerNames extension := by
  rw [steps_push_outputPath h hext, Path.destination_append, Path.destination_entries]

end Definition

end DsdlHeaders
