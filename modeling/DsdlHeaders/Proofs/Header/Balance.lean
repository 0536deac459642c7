import DsdlHeaders.Proofs.Header.Inline
import DsdlHeaders.Proofs.Header.Totality

/-!
# Headers are balanced

Every brace that a header opens is closed again, and its name spaces are closed in the reverse of
the order in which they are opened.

* **Blocks.** Everything but the name spaces is a block: whole lines with braces that match, none of
  which is a line of a name space. There is one lemma for each text of the layout; it names the
  parts of the text, and reading them is left to evaluation.
* **Name spaces.** The lines that open them raise the depth by one each, and those that close them
  lower it again (`depthAfter_openSpaces`, `depthAfter_closeSpaces`).
* **Headers** are three blocks with the opened and the closed name spaces in between
  (`exists_header_eq`).

Main statement: `headers_are_balanced`.
-/

namespace DsdlHeaders

namespace Layout

-- A fixed text of the layout is taken apart into its characters, hundreds of them in the longest.
set_option maxRecDepth 2000

/-! ## Declarations

One lemma for each text of the layout: it is a block when the texts put into it are inline. -/

/-- The items of a numbered list are those of the list. -/
theorem mem_of_mem_numbered {α : Type} {index : Nat} {items : List α} {entry : Nat × Bool × α}
    (h : entry ∈ numbered index items) : entry.2.2 ∈ items := by
  induction items generalizing index with
  | nil => exact absurd h List.not_mem_nil
  | cons item items ih =>
    rcases List.mem_cons.mp h with rfl | h
    · exact List.mem_cons_self
    · exact List.mem_cons_of_mem _ (ih h)

section Members

variable {member : Member} {members : List Member}

theorem isBlock_typeAlias {typeExpr name : String} (htype : IsInline typeExpr)
    (hname : IsInline name) : IsBlock (typeAlias typeExpr name) :=
  Composed.isBlock (.fixed _ <| .inline htype <| .fixed _ <| .inline hname <|
    .fixed _ .nil) rfl

theorem isBlock_enumerator (index : Nat) (last : Bool) (hname : IsInline member.name) :
    IsBlock (enumerator index last member) := by
  have hcomma : IsInline (if last then "" else ",") := by cases last <;> decide
  exact Composed.isBlock (.fixed _ <| .inline hname <| .fixed _ <|
    .inline (isInline_toString index) <| .inline hcomma <| .fixed _ .nil) rfl

theorem isBlock_tagDeclaration (hmembers : ∀ member ∈ members, IsInline member.name) :
    IsBlock (tagDeclaration members) := by
  have htags : IsBlock (enumerators members) := by
    apply isBlock_join_map
    intro entry hentry
    exact isBlock_enumerator _ _ (hmembers _ (mem_of_mem_numbered hentry))
  exact Composed.isBlock (.fixed _ <| .block htags <| .fixed _ <|
    .inline (isInline_toString_int _) <| .fixed _ .nil) rfl

theorem isBlock_constantDeclaration {constant : ConstantContext} (h : constant.Inline) :
    IsBlock (constantDeclaration constant) :=
  Composed.isBlock (.fixed _ <| .inline h.name <| .fixed _ <| .inline h.name <| .fixed _ <|
    .inline h.literal <| .fixed _ .nil) rfl

theorem isBlock_memberDeclaration (hname : IsInline member.name) :
    IsBlock (memberDeclaration member) := by
  unfold memberDeclaration
  split
  · exact Composed.isBlock (.fixed _ <| .inline hname <| .fixed _ <| .inline hname <|
      .fixed _ .nil) rfl
  · exact isBlock_empty

theorem isBlock_initializers (hmembers : ∀ member ∈ members, IsInline member.name) :
    IsBlock (initializers members) := by
  apply isBlock_join_map
  intro entry hentry
  have hmark : IsInline (if entry.1 == 0 then ":" else ",") := by split <;> decide
  have hname := hmembers _ (List.mem_filter.mp (mem_of_mem_numbered hentry)).1
  exact Composed.isBlock (.fixed _ <| .inline hmark <| .fixed _ <| .inline hname <|
    .fixed _ .nil) rfl

theorem isBlock_portDeclaration (portId : Option Nat) : IsBlock (portDeclaration portId) := by
  cases portId with
  | none => exact isBlock_empty
  | some portId =>
    exact Composed.isBlock (.fixed _ <| .inline (isInline_toString portId) <| .fixed _ .nil) rfl

theorem isBlock_messageInfo {names : NameContext} (h : names.Inline) :
    IsBlock (messageInfo names) :=
  Composed.isBlock (.fixed _ <| .inline names.isInline_kindToken <| .fixed _ <|
    .block (isBlock_portDeclaration names.portId) <| .fixed _ <| .inline h.fullName <|
    .fixed _ .nil) rfl

theorem isBlock_declaration {typeName : String} {body : BodyContext} {info : Option NameContext}
    (htype : IsInline typeName) (hbody : body.Inline) (hinfo : ∀ names ∈ info, names.Inline) :
    IsBlock (declaration typeName body info) := by
  have hconstantTypes : IsBlock (String.join (body.constants.map fun constant =>
      typeAlias constant.typeExpr constant.name)) := by
    apply isBlock_join_map
    intro constant hconstant
    have hinline := hbody.constants constant hconstant
    exact isBlock_typeAlias hinline.typeExpr hinline.name
  have hfieldTypes : IsBlock (String.join (body.fields.map fun field =>
      typeAlias field.typeExpr field.name)) := by
    apply isBlock_join_map
    intro field hfield
    have hinline := hbody.fields field hfield
    exact isBlock_typeAlias hinline.typeExpr hinline.name
  have htag : IsBlock (if body.isUnion then tagDeclaration body.members else "") := by
    split
    · exact isBlock_tagDeclaration hbody.members
    · exact isBlock_empty
  have hconstants : IsBlock (String.join (body.constants.map constantDeclaration)) := by
    apply isBlock_join_map
    intro constant hconstant
    exact isBlock_constantDeclaration (hbody.constants constant hconstant)
  have hmembers : IsBlock (String.join (body.members.map memberDeclaration)) := by
    apply isBlock_join_map
    intro member hmember
    exact isBlock_memberDeclaration (hbody.members member hmember)
  have hmessage : IsBlock ((info.map messageInfo).getD "") := by
    cases info with
    | none => exact isBlock_empty
    | some names =>
      rw [Option.map_some, Option.getD_some]
      exact isBlock_messageInfo (hinfo names rfl)
  exact Composed.isBlock (.fixed _ <| .inline htype <| .fixed _ <| .inline htype <| .fixed _ <|
    .inline htype <| .fixed _ <| .block hconstantTypes <| .fixed _ <| .block hfieldTypes <|
    .fixed _ <| .block htag <| .fixed _ <| .block hconstants <| .fixed _ <| .block hmembers <|
    .fixed _ <| .inline htype <| .fixed _ <| .block (isBlock_initializers hbody.members) <|
    .fixed _ <| .block hmessage <| .fixed _ .nil) rfl

/-! ## Definitions -/

theorem isBlock_memberComparison (hname : IsInline member.name) :
    IsBlock (memberComparison member) := by
  unfold memberComparison
  split
  · exact Composed.isBlock (.fixed _ <| .inline hname <| .fixed _ <| .inline hname <|
      .fixed _ .nil) rfl
  · exact isBlock_empty

section Codec

variable {op : String}

theorem isBlock_switchCase (hop : IsInline op) (hname : IsInline member.name) :
    IsBlock (switchCase op member) :=
  Composed.isBlock (.fixed _ <| .inline hname <| .fixed _ <| .inline hname <| .fixed _ <|
    .inline hop <| .fixed _ <| .inline hname <| .fixed _ .nil) rfl

theorem isBlock_codecCall (hop : IsInline op) (last : Bool) (hname : IsInline member.name) :
    IsBlock (codecCall op last member) := by
  have hmode : IsInline (if last then "tao_mode" else "::uavcan::TailArrayOptDisabled") := by
    cases last <;> decide
  unfold codecCall
  split
  · exact Composed.isBlock (.fixed _ <| .inline hname <| .fixed _ <| .inline hname <| .fixed _ <|
      .inline hop <| .fixed _ .nil) rfl
  · exact Composed.isBlock (.fixed _ <| .inline hname <| .fixed _ <| .inline hop <| .fixed _ <|
      .inline hname <| .fixed _ <| .inline hmode <| .fixed _ .nil) rfl

theorem isBlock_codecBody (hop : IsInline op) (isUnion : Bool)
    (hmembers : ∀ member ∈ members, IsInline member.name) :
    IsBlock (codecBody op isUnion members) := by
  have huses : IsBlock parameterUses := isBlock_fixed _ rfl
  refine Leads.append huses ?_
  split
  · have hcases : IsBlock (String.join (members.map (switchCase op))) := by
      apply isBlock_join_map
      intro member hmember
      exact isBlock_switchCase hop (hmembers member hmember)
    exact Composed.isBlock (.fixed _ <| .inline hop <| .fixed _ <| .block hcases <|
      .fixed _ .nil) rfl
  · have hcalls : IsBlock (String.join ((numbered 0 members).map fun entry =>
        String.join [codecCall op entry.2.1 entry.2.2, failureCheck])) := by
      apply isBlock_join_map
      intro entry hentry
      have hcall := isBlock_codecCall hop entry.2.1 (hmembers _ (mem_of_mem_numbered hentry))
      exact Composed.isBlock (.block hcall <| .fixed _ .nil) rfl
    exact Composed.isBlock (.fixed _ <| .block hcalls <| .fixed _ .nil) rfl

theorem isBlock_codecDefinition {selfType scope typeName : String} (hop : IsInline op)
    (hself : IsInline selfType) (hscope : IsInline scope) (htype : IsInline typeName)
    (isUnion : Bool) (hmembers : ∀ member ∈ members, IsInline member.name) :
    IsBlock (codecDefinition op selfType scope typeName isUnion members) :=
  Composed.isBlock (.fixed _ <| .inline hscope <| .inline htype <| .fixed _ <|
    .inline hop <| .fixed _ <| .inline hself <| .fixed _ <|
    .block (isBlock_codecBody hop isUnion hmembers) <| .fixed _ .nil) rfl

end Codec

end Members

section Structures

variable {scope typeName : String} {body : BodyContext}

theorem isBlock_codecDefinitions (hscope : IsInline scope) (htype : IsInline typeName)
    (hbody : body.Inline) :
    IsBlock (codecDefinitions scope typeName body.isUnion body.members) := by
  have hnames : ∀ function ∈ codecFunctions, IsInline function.1 ∧ IsInline function.2 := by decide
  apply isBlock_join_map
  intro function hfunction
  obtain ⟨hop, hself⟩ := hnames function hfunction
  exact isBlock_codecDefinition hop hself hscope htype _ hbody.members

theorem isBlock_constantDefinition {constant : ConstantContext} (hscope : IsInline scope)
    (htype : IsInline typeName) (h : constant.Inline) :
    IsBlock (constantDefinition scope typeName constant) :=
  Composed.isBlock (.fixed _ <| .inline hscope <| .inline htype <| .fixed _ <|
    .inline h.name <| .fixed _ <| .inline hscope <| .inline htype <| .fixed _ <| .inline h.name <|
    .fixed _ <| .inline h.spelling <| .fixed _ <| .inline h.literal <| .fixed _ .nil) rfl

theorem isBlock_definitions (hscope : IsInline scope) (htype : IsInline typeName)
    (hbody : body.Inline) : IsBlock (definitions scope typeName body) := by
  have htag : IsBlock (if body.isUnion then
      "    if (_tag_ != rhs._tag_)\n    \x7b\n        return false;\n    \x7d\n" else "") := by
    split
    · exact isBlock_fixed _ rfl
    · exact isBlock_empty
  have hmembers : IsBlock (String.join (body.members.map memberComparison)) := by
    apply isBlock_join_map
    intro member hmember
    exact isBlock_memberComparison (hbody.members member hmember)
  have hconstants : IsBlock
      (String.join (body.constants.map (constantDefinition scope typeName))) := by
    apply isBlock_join_map
    intro constant hconstant
    exact isBlock_constantDefinition hscope htype (hbody.constants constant hconstant)
  exact Composed.isBlock (.fixed _ <| .inline hscope <| .inline htype <| .fixed _ <|
    .block htag <| .block hmembers <| .fixed _ <|
    .block (isBlock_codecDefinitions hscope htype hbody) <| .block hconstants .nil) rfl

end Structures

/-! ## Name spaces -/

/-- The text that opens a name space. -/
def openSpace (space : String) : String :=
  String.join ["namespace ", space, "\n\x7b\n"]

/-- The text that closes a name space. -/
def closeSpace (space : String) : String :=
  String.join ["\x7d // Namespace ", space, "\n"]

/-- The text that opens name spaces, the outermost one first. -/
def openSpaces (spaces : List String) : String :=
  String.join (spaces.map openSpace)

/-- The text that closes name spaces, the innermost one first. -/
def closeSpaces (spaces : List String) : String :=
  String.join (spaces.reverse.map closeSpace)

/-- The line that opens a name space. -/
def openingLine (space : String) : List Char :=
  ("namespace " ++ space).toList

/-- The line that closes a name space. -/
def closingLine (space : String) : List Char :=
  ("\x7d // Namespace " ++ space).toList

/-- Opening a name space takes its line and one with a brace. -/
theorem toList_openSpace (space : String) (rest : List Char) :
    (openSpace space).toList ++ rest =
      openingLine space ++ '\n' :: (['\x7b'] ++ '\n' :: rest) := by
  simp [openSpace, openingLine, String.join_cons]

/-- Closing a name space takes its line. -/
theorem toList_closeSpace (space : String) (rest : List Char) :
    (closeSpace space).toList ++ rest = closingLine space ++ '\n' :: rest := by
  simp [closeSpace, closingLine, String.join_cons]

/-- A mark and the name of a space are a line of a name space. -/
theorem spaceLines_mark {mark : List Char} (hmark : mark ∈ spaceMarks) {space : String}
    (h : IsInline space) (rest : List Char) :
    spaceLines (mark ++ space.toList ++ '\n' :: rest) =
      (mark ++ space.toList) :: spaceLines rest := by
  have hmarks : ∀ mark ∈ spaceMarks, '\n' ∉ mark := by decide
  have hline : '\n' ∉ mark ++ space.toList := by
    rw [List.mem_append, not_or]
    exact ⟨hmarks mark hmark, fun hmem => (h '\n' hmem).2.2 rfl⟩
  have hspace : isSpaceLine (mark ++ space.toList) = true :=
    List.any_eq_true.mpr ⟨mark, hmark, Text.startsWith_iff.mpr (List.prefix_append _ _)⟩
  rw [spaceLines_line hline, List.filter_cons, if_pos hspace]
  rfl

/-- The only line of a name space in the text that opens it is its own. -/
theorem spaceLines_openSpace {space : String} (h : IsInline space) (rest : List Char) :
    spaceLines ((openSpace space).toList ++ rest) = openingLine space :: spaceLines rest := by
  rw [toList_openSpace, openingLine, String.toList_append,
    spaceLines_mark (by simp [spaceMarks]) h, spaceLines_line (by decide)]
  rfl

/-- The only line of a name space in the text that closes it is its own. -/
theorem spaceLines_closeSpace {space : String} (h : IsInline space) (rest : List Char) :
    spaceLines ((closeSpace space).toList ++ rest) = closingLine space :: spaceLines rest := by
  rw [toList_closeSpace, closingLine, String.toList_append,
    spaceLines_mark (by simp [spaceMarks]) h]

/-- The lines of name spaces in a text for each of them. -/
theorem spaceLines_join_map {spaces : List String} {text : String → String}
    {line : String → List Char}
    (h : ∀ space ∈ spaces, ∀ rest,
      spaceLines ((text space).toList ++ rest) = line space :: spaceLines rest) (rest : List Char) :
    spaceLines ((String.join (spaces.map text)).toList ++ rest) =
      spaces.map line ++ spaceLines rest := by
  induction spaces with
  | nil => rfl
  | cons space spaces ih =>
    obtain ⟨hfirst, hothers⟩ := List.forall_mem_cons.mp h
    rw [List.map_cons, String.join_cons, String.toList_append, List.append_assoc, hfirst,
      ih hothers, List.map_cons, List.cons_append]

/-- Opening a name space opens a brace. -/
theorem depthAfter_openSpace {space : String} (h : IsInline space) (depth : Nat)
    (rest : List Char) :
    depthAfter depth ((openSpace space).toList ++ rest) = depthAfter (depth + 1) rest := by
  have hline : IsInline ("namespace " ++ space) := isInline_append.mpr ⟨by decide, h⟩
  rw [toList_openSpace, depthAfter_append, openingLine, (hline.leads depth).depth]
  rfl

/-- Closing a name space closes a brace. -/
theorem depthAfter_closeSpace {space : String} (h : IsInline space) (depth : Nat)
    (rest : List Char) :
    depthAfter (depth + 1) ((closeSpace space).toList ++ rest) = depthAfter depth rest := by
  have hmark : depthAfter (depth + 1) "\x7d // Namespace ".toList = some depth := rfl
  rw [toList_closeSpace, depthAfter_append, closingLine, String.toList_append, depthAfter_append,
    hmark, Option.bind_some, (h.leads depth).depth]
  rfl

/-- Opening name spaces opens a brace for each. -/
theorem depthAfter_openSpaces {spaces : List String} (h : ∀ space ∈ spaces, IsInline space)
    (depth : Nat) (rest : List Char) :
    depthAfter depth ((openSpaces spaces).toList ++ rest) =
      depthAfter (depth + spaces.length) rest := by
  induction spaces generalizing depth with
  | nil => rfl
  | cons space spaces ih =>
    obtain ⟨hspace, hspaces⟩ := List.forall_mem_cons.mp h
    rw [openSpaces, List.map_cons, String.join_cons, String.toList_append, List.append_assoc,
      depthAfter_openSpace hspace, ← openSpaces, ih hspaces, List.length_cons, Nat.add_assoc,
      Nat.add_comm 1]

/-- Closing as many name spaces as are open closes all of their braces. -/
theorem depthAfter_closeSpaces {spaces : List String} (h : ∀ space ∈ spaces, IsInline space)
    (depth : Nat) (rest : List Char) :
    depthAfter (depth + spaces.length) ((closeSpaces spaces).toList ++ rest) =
      depthAfter depth rest := by
  -- The last one that was opened is closed first, so the induction is from the right.
  induction spaces using List.reverseRecOn generalizing rest with
  | nil => rfl
  | append_singleton spaces space ih =>
    obtain ⟨hspaces, hspace⟩ := List.forall_mem_append.mp h
    rw [closeSpaces, List.reverse_append, List.reverse_singleton, List.singleton_append,
      List.map_cons, String.join_cons, String.toList_append, List.append_assoc,
      List.length_append, List.length_singleton, ← Nat.add_assoc,
      depthAfter_closeSpace (hspace space List.mem_cons_self), ← closeSpaces, ih hspaces]

/-! ## Headers -/

section Headers

variable {names : NameContext}

theorem isBlock_messageContent (hnames : names.Inline) {body : BodyContext} (hbody : body.Inline) :
    IsBlock (messageContent names body) := by
  have hdeclaration : IsBlock (declaration names.typeName body (some names)) := by
    apply isBlock_declaration hnames.typeName hbody
    intro info hinfo
    obtain rfl := Option.some.inj hinfo
    exact hnames
  have hscope : IsInline "" := by decide
  exact Composed.isBlock (.block hdeclaration <| .fixed _ <|
    .block (isBlock_definitions hscope hnames.typeName hbody) <| .fixed _ <|
    .inline hnames.typeName <| .fixed _ <| .inline hnames.shortName <| .fixed _ .nil) rfl

theorem isBlock_serviceContent (hnames : names.Inline) {request response : BodyContext}
    (hrequest : request.Inline) (hresponse : response.Inline) :
    IsBlock (serviceContent names request response) := by
  have hrequestName : IsInline "Request_" := by decide
  have hresponseName : IsInline "Response_" := by decide
  have hscope : IsInline (names.typeName ++ "::") :=
    isInline_append.mpr ⟨hnames.typeName, by decide⟩
  have hnone : ∀ info ∈ (none : Option NameContext), info.Inline := by simp
  have hfirst := (isBlock_declaration hrequestName hrequest hnone).indented
  have hsecond := (isBlock_declaration hresponseName hresponse hnone).indented
  exact Composed.isBlock (.fixed _ <| .inline hnames.typeName <| .fixed _ <|
    .openBlock hfirst <| .fixed _ <| .openBlock hsecond <| .fixed _ <|
    .inline names.isInline_kindToken <| .fixed _ <|
    .block (isBlock_portDeclaration names.portId) <| .fixed _ <| .inline hnames.fullName <|
    .fixed _ <| .block (isBlock_definitions hscope hrequestName hrequest) <| .fixed _ <|
    .block (isBlock_definitions hscope hresponseName hresponse) <| .fixed _ <|
    .inline hnames.typeName <| .fixed _ <| .inline hnames.shortName <| .fixed _ .nil) rfl

theorem isBlock_content (hnames : names.Inline) {bodies : ContextBodies}
    (hbodies : ∀ body ∈ bodies.list, body.Inline) : IsBlock (content names bodies) := by
  cases bodies with
  | message body =>
    exact isBlock_messageContent hnames (hbodies body (by simp [ContextBodies.list]))
  | service request response =>
    exact isBlock_serviceContent hnames (hbodies request (by simp [ContextBodies.list]))
      (hbodies response (by simp [ContextBodies.list]))

theorem isBlock_registration (hnames : names.Inline) : IsBlock (registration names) := by
  unfold registration
  split
  · exact Composed.isBlock (.fixed _ <| .inline hnames.qualifiedName <| .fixed _ <|
      .inline hnames.shortName <| .fixed _ .nil) rfl
  · exact isBlock_empty

/-- A joined text around one of its parts. -/
theorem join_append_cons (texts others : List String) (text : String) :
    String.join (texts ++ text :: others) = String.join texts ++ text ++ String.join others := by
  rw [String.join_append, String.join_cons, String.append_assoc]

/-- What stands around the opened name spaces of a header. -/
theorem exists_opening_eq (hnames : names.Inline) : ∃ front back, IsBlock front ∧ IsBlock back ∧
    opening names = front ++ openSpaces names.spaces ++ back := by
  have hincludes : IsBlock (String.join (names.includes.map fun path =>
      String.join ["#include <", path, ">\n"])) := by
    apply isBlock_join_map
    intro path hpath
    exact Composed.isBlock (.fixed _ <| .inline (hnames.includes path hpath) <| .fixed _ .nil) rfl
  refine ⟨_, _, ?_, ?_, join_append_cons [leadingComment, names.fullName, "\n */\n\n#ifndef ",
    names.guard, "\n#define ", names.guard, standardIncludes, _, "\n"] ["\n"] _⟩
  · exact Composed.isBlock (.fixed _ <| .inline hnames.fullName <| .fixed _ <|
      .inline hnames.guard <| .fixed _ <| .inline hnames.guard <| .fixed _ <| .block hincludes <|
      .fixed _ .nil) rfl
  · exact Composed.isBlock (.fixed _ .nil) rfl

/-- What stands around the closed name spaces of a header. -/
theorem exists_closing_eq (hnames : names.Inline) : ∃ front back, IsBlock front ∧ IsBlock back ∧
    closing names = front ++ closeSpaces names.spaces ++ back := by
  refine ⟨_, _, ?_, ?_, join_append_cons [registration names, "\n"]
    ["\n#endif // ", names.guard, "\n"] _⟩
  · exact Composed.isBlock (.block (isBlock_registration hnames) <| .fixed _ .nil) rfl
  · exact Composed.isBlock (.fixed _ <| .inline hnames.guard <| .fixed _ .nil) rfl

/-- A header is three blocks with the name spaces in between. -/
theorem exists_header_eq {context : Context} (hnames : context.names.Inline)
    (hbodies : ∀ body ∈ context.bodies.list, body.Inline) :
    ∃ front middle back, IsBlock front ∧ IsBlock middle ∧ IsBlock back ∧
      header context = front ++ openSpaces context.names.spaces ++ middle ++
        closeSpaces context.names.spaces ++ back := by
  obtain ⟨front, inside, hfront, hinside, hopening⟩ := exists_opening_eq hnames
  obtain ⟨outside, back, houtside, hback, hclosing⟩ := exists_closing_eq hnames
  refine ⟨front, inside ++ content context.names context.bodies ++ outside, back, hfront, ?_, hback,
    ?_⟩
  · exact (Leads.append hinside (isBlock_content hnames hbodies)).append houtside
  · simp only [header, hopening, hclosing, String.append_assoc]

/-- The braces of a header match, and its name spaces are closed in the reverse of the order in
which they are opened. -/
theorem bracesMatch_and_spaceLines_header {context : Context} (hnames : context.names.Inline)
    (hbodies : ∀ body ∈ context.bodies.list, body.Inline) :
    BracesMatch (header context).toList ∧ spaceLines (header context).toList =
      context.names.spaces.map openingLine ++ context.names.spaces.reverse.map closingLine := by
  obtain ⟨front, middle, back, hfront, hmiddle, hback, heq⟩ := exists_header_eq hnames hbodies
  have hchars : (header context).toList = front.toList ++
      ((openSpaces context.names.spaces).toList ++ (middle.toList ++
        ((closeSpaces context.names.spaces).toList ++ (back.toList ++ [])))) := by
    rw [heq]
    simp only [String.toList_append, List.append_assoc, List.append_nil]
  constructor
  · apply bracesMatch_of_depthAfter
    rw [hchars, hfront.depthAfter_skip, depthAfter_openSpaces hnames.spaces,
      hmiddle.depthAfter_skip, depthAfter_closeSpaces hnames.spaces, hback.depthAfter_skip]
    rfl
  · have hclosed : ∀ space ∈ context.names.spaces.reverse, IsInline space :=
      fun space hspace => hnames.spaces space (List.mem_reverse.mp hspace)
    rw [hchars, hfront.spaceLines_skip, openSpaces,
      spaceLines_join_map fun space hspace => spaceLines_openSpace (hnames.spaces space hspace),
      hmiddle.spaceLines_skip, closeSpaces,
      spaceLines_join_map fun space hspace => spaceLines_closeSpace (hclosed space hspace),
      hback.spaceLines_skip, show spaceLines [] = [] from rfl, List.append_nil]

end Headers

end Layout

/-! ## Definitions -/

open Layout

/-- The shipped template compiles. For a valid definition that has a context, refers to proper full
names only and has identifiers as names of its constants, the braces of its expansion match and the
name spaces are closed in the reverse of their order. There is such an expansion, unless a union has
more fields than integers can count, which is more than any list in memory has. -/
theorem headers_are_balanced (path : String) {definition : Definition} {context : Context}
    (hvalid : definition.validate = .ok ())
    (hcontext : definition.context defaultExtension = .ok context)
    (hreferenced : ∀ target ∈ definition.referenced, isFullName target.fullName = true)
    (hconstants : ∀ body ∈ definition.bodies, ∀ constant ∈ body.constants,
      isIdentifier constant.name = true) :
    ∃ template, Template.compile path Template.Shipped.source = .ok template ∧
      (∀ text, template.expand context = .ok text → BracesMatch text.toList ∧
        spaceLines text.toList =
          definition.spaces.map openingLine ++ definition.spaces.reverse.map closingLine) ∧
      ((∃ text, template.expand context = .ok text) ∨
        ∃ body ∈ definition.bodies, body.isUnion = true ∧ 2 ^ 127 ≤ body.fields.length) := by
  obtain ⟨hnames, hbodies⟩ := Definition.inline_of_context
    (Definition.validate_eq_ok_iff.mp hvalid) hcontext hreferenced hconstants (by decide)
  have hheader := bracesMatch_and_spaceLines_header hnames hbodies
  rw [Definition.names_of_context hcontext] at hheader
  refine ⟨_, Template.Shipped.compile_source path, ?_⟩
  by_cases hcount : ∀ body ∈ context.bodies.list, body.Countable
  · have hexpand := Template.Shipped.expand_shipped path hcount
    refine ⟨fun text htext => ?_, .inl ⟨_, hexpand⟩⟩
    obtain rfl := Except.ok.inj (hexpand.symm.trans htext)
    exact hheader
  · refine ⟨fun text htext => ?_, .inr (Definition.exists_uncountable hcontext hcount)⟩
    rw [Template.Shipped.expand_eq_error path hcount] at htext
    exact absurd htext (by simp)

/-- A service in two name spaces, with padding, an array of a referenced type, a union and
constants of both kinds. -/
def linkService : Definition :=
  .service "site.link.Query" (some 12)
    (.mk [.mk none (.void 3),
        .mk (some "peers") (.array (.compound (.reference "site.Peer")) (.dynamic 4))]
      [⟨"LIMIT", ⟨.floating, 32, .saturated⟩, "-1.5e3"⟩] false)
    (.mk [.mk (some "idle") (.primitive ⟨.boolean, 1, .saturated⟩),
        .mk (some "load") (.primitive ⟨.unsigned, 8, .truncated⟩)]
      [⟨"NONE", ⟨.unsigned, 8, .saturated⟩, "0"⟩] true)

/-- The header of the service is balanced: it opens `site` and then `link`, and closes `link` and
then `site`. -/
theorem header_of_linkService_is_balanced : linkService.validate = .ok () ∧
    ∃ context, linkService.context defaultExtension = .ok context ∧
    ∃ template, Template.compile "data_type" Template.Shipped.source = .ok template ∧
    ∃ text, template.expand context = .ok text ∧ BracesMatch text.toList ∧
      spaceLines text.toList = [openingLine "site", openingLine "link",
        closingLine "link", closingLine "site"] := by
  have hvalid : linkService.validate = .ok () := by decide +kernel
  have hsome : (linkService.context defaultExtension).toOption.isSome = true := by decide +kernel
  have hspaces : linkService.spaces = ["site", "link"] := by decide +kernel
  have hfew : ∀ body ∈ linkService.bodies, body.fields.length < 2 ^ 127 := by decide
  cases hcontext : linkService.context defaultExtension with
  | error error =>
    rw [hcontext] at hsome
    exact absurd hsome (by simp [Except.toOption])
  | ok context =>
    obtain ⟨template, hcompile, hbalanced, hexpand⟩ := headers_are_balanced "data_type" hvalid
      hcontext (by decide +kernel) (by decide +kernel)
    rcases hexpand with ⟨text, htext⟩ | ⟨body, hbody, -, hmany⟩
    · obtain ⟨hbraces, hlines⟩ := hbalanced text htext
      rw [hspaces] at hlines
      exact ⟨hvalid, context, rfl, template, hcompile, text, htext, hbraces, hlines⟩
    · exact absurd hmany (Nat.not_le.mpr (hfew body hbody))

end DsdlHeaders
