import DsdlHeaders.Proofs.Header.Tree
import DsdlHeaders.Proofs.Template.Plain

/-!
# The expansion of the shipped template

Expanding the shipped template for a context gives the header of that context, text for text
(`expand_shipped`). The only contexts that are left out have a union with more fields than integers
can count.

* **Routines.** `writes_declaration` and `writes_definitions` say what the two routines of the
  template write, in the scope of their parameters. They follow the statements of the tree: plain
  statements are read off, and every loop and every condition is one step.
* **Codec functions.** `writes_codec` is the part that encodes and decodes.
* **State.** The statements around the routines run in `headerScope`, which holds once both routines
  were met (`headerScope_holdsIn`).
-/

namespace DsdlHeaders.Template.Shipped

open Layout

/-! ## Items -/

/-- Numbered items as values. -/
theorem numberedItems_map {α : Type} (item : α → Value) (index : Nat) (xs : List α) :
    numberedItems index (xs.map item) = (numbered index xs).map fun entry =>
      .list [.integer entry.1, .boolean entry.2.1, item entry.2.2] := by
  induction xs generalizing index with
  | nil => rfl
  | cons x xs ih =>
    have hrest : numberedItems ((index : Int) + 1) (xs.map item) = _ := ih (index + 1)
    rw [List.map_cons, numberedItems, numbered, List.map_cons, hrest, List.isEmpty_map]
    rfl

/-- Items with their index as values. -/
theorem indexedItems_map {α : Type} (item : α → Value) (index : Nat) (xs : List α) :
    indexedItems index (xs.map item) = (numbered index xs).map fun entry =>
      .list [.integer entry.1, item entry.2.2] := by
  induction xs generalizing index with
  | nil => rfl
  | cons x xs ih =>
    have hrest : indexedItems ((index : Int) + 1) (xs.map item) = _ := ih (index + 1)
    rw [List.map_cons, indexedItems, numbered, List.map_cons, hrest]

/-- Numbering does not look at the items. -/
theorem numbered_map {α β : Type} (f : α → β) (index : Nat) (xs : List α) :
    numbered index (xs.map f) =
      (numbered index xs).map fun entry => (entry.1, entry.2.1, f entry.2.2) := by
  induction xs generalizing index with
  | nil => rfl
  | cons x xs ih => rw [List.map_cons, numbered, numbered, List.map_cons, ih, List.isEmpty_map]

/-- A walk over numbered fields. -/
theorem walks_fields {scope : Scope} {invoke : Invoke} {fields : List FieldContext}
    (hnumbering : scope.names.find? "enum_last_value" = some (.function .enumLastValue))
    (hfields : scope.names.find? "fields" = some (fieldValues fields)) :
    Walks scope (evaluate invoke (call "enum_last_value" [.name "fields"]))
      ((numbered 0 fields).map fun entry =>
        .list [.integer entry.1, .boolean entry.2.1, entry.2.2.value]) := by
  rw [← numberedItems_map FieldContext.value 0]
  exact Walks.numbered hnumbering (by decide) (by simp) (Gives.name hfields)

/-! ## Routines -/

/-- The names that the routines share. -/
def shared : Bindings :=
  [("struct_defs", .routine definitionsRoutine (some 0)),
    ("struct_body", .routine declarationRoutine (some 0)), ("enumerate", .function .enumerate),
    ("len", .function .len), ("enum_last_value", .function .enumLastValue)]

section Declaration

variable (typeName : String) (body : BodyContext) (info : Option NameContext)

/-- What a structure is told about its message. -/
def infoValue : Value :=
  match info with
  | some names => (Context.mk names (.message body)).value
  | none => .nothing

/-- The scope of the routine that declares a structure. -/
def declarationScope (room : Nat) : Scope where
  names := declarationRoutine.parameters.zip [.text typeName, fieldValues body.fields,
    constantValues body.constants, .boolean body.isUnion, infoValue body info] ++ shared
  closures := [shared]
  room := room + 2

variable {typeName body info} {invoke : Invoke} {room : Nat}

/-- The enumeration of the tags of a union. -/
theorem runs_enumerators :
    Runs (declarationScope typeName body info room) (execute invoke
      (each (.unpack [.name "i", .name "last", .name "f"])
        (call "enum_last_value" [.name "fields"])
        [.text "        Tag_",
         .output (attr "f" "name"),
         .text " = ",
         .output (.name "i"),
         .output (.choose (.name "last") (.text "") (.text ",")),
         .text "\n"])) () (enumerators body.members) := by
  unfold enumerators
  rw [BodyContext.members, numbered_map, List.map_map]
  apply Runs.loop_names ["i", "last", "f"] (Nat.succ_pos _) (by decide) (fun _ => rfl)
    (fun _ => .of_all rfl) (walks_fields rfl rfl)
  intro entry _
  unfold Function.comp enumerator
  repeat' first | exact Writes.join_nil | exact Runs.of_plain? rfl | apply Writes.join_cons
  exact Runs.choice (Gives.of_value? rfl)

/-- The number of fields. -/
theorem gives_fieldCount : Gives (declarationScope typeName body info room) invoke
    (call "len" [.name "fields"]) (.word body.fields.length) := by
  apply Gives.call rfl (by decide) (.of_values? rfl)
  rw [← List.length_map FieldContext.value]
  exact Runs.len _

/-- The tag of a union. -/
theorem writes_tag (hcount : body.fields.length < Text.wordSize 127) :
    Writes (declarationScope typeName body info room) invoke tagTree
      (tagDeclaration body.members) := by
  unfold tagTree tagDeclaration
  repeat' first | exact Writes.join_nil | exact Runs.of_plain? rfl | apply Writes.join_cons
  · exact runs_enumerators
  · rw [BodyContext.members, List.length_map]
    exact Runs.output (Gives.binary gives_fieldCount (Gives.integer 1) (Runs.pred hcount))
      (.integer _) (by simp)

/-- What a message declares about itself. -/
theorem writes_info (names : NameContext) :
    Writes (declarationScope typeName body (some names) room) invoke infoTree
      (messageInfo names) := by
  obtain ⟨fullName, _, _, _, _, _, _, _, portId, _⟩ := names
  unfold infoTree messageInfo
  cases portId with
  | none =>
    repeat' first | exact Writes.join_nil | exact Runs.of_plain? rfl | apply Writes.join_cons
    exact Runs.branch_false (Gives.of_value? rfl) rfl rfl rfl Writes.nil
  | some n =>
    repeat' first | exact Writes.join_nil | exact Runs.of_plain? rfl | apply Writes.join_cons
    exact Runs.branch_true (Gives.of_value? rfl) rfl rfl rfl (Writes.of_plainAll? rfl)

/-- A field is declared unless it is padding. -/
theorem writes_memberDeclaration (field : FieldContext) :
    Writes ((declarationScope typeName body info room).inside [("f", field.value)]) invoke
      [when (.not (attr "f" "void"))
        [.text "    typename ::uavcan::StorageType< typename FieldTypes::",
         .output (attr "f" "name"),
         .text " >::Type ",
         .output (attr "f" "name"),
         .text ";\n"]]
      (memberDeclaration field.member) := by
  have hvoid : Gives ((declarationScope typeName body info room).inside [("f", field.value)])
      invoke (attr "f" "void") (.boolean field.isVoid) := Gives.of_value? rfl
  apply Writes.single
  apply Runs.branch (hvoid.not rfl rfl)
  · intro _
    exact Writes.of_plainAll? rfl
  · intro _
    exact Writes.nil

/-- The initialisation of the fields that are stored. -/
theorem runs_initializers :
    Runs (declarationScope typeName body info room) (execute invoke
      (each (.unpack [.name "i", .name "f"])
        (call "enumerate" [.filter "rejectattr" (.name "fields") [.text "void"] [] []])
        [.text "        ",
         .output (.choose (.compare (.name "i") [.equal] [.integer 0]) (.text ":") (.text ",")),
         .text " ",
         .output (attr "f" "name"),
         .text "()\n"])) () (initializers body.members) := by
  have hstored : body.members.filter (fun member => !member.isPadding) =
      (body.fields.filter fun field => !field.isVoid).map FieldContext.member := by
    rw [BodyContext.members, List.filter_map]
    rfl
  have hwalks : Walks (declarationScope typeName body info room) (evaluate invoke
      (call "enumerate" [.filter "rejectattr" (.name "fields") [.text "void"] [] []]))
      ((numbered 0 (body.fields.filter fun field => !field.isVoid)).map fun entry =>
        .list [.integer entry.1, entry.2.2.value]) := by
    rw [← indexedItems_map FieldContext.value 0]
    apply Walks.list
    apply Gives.call rfl (by decide) (.cons (by simp) ?_ .nil) (Runs.enumerate _)
    exact Gives.filter (Gives.of_value? rfl) (.of_values? rfl)
      (Runs.rejectattr (fun _ => rfl) (fun _ => rfl) body.fields)
  unfold initializers
  rw [hstored, numbered_map, List.map_map]
  apply Runs.loop_names ["i", "f"] (Nat.succ_pos _) (by decide) (fun _ => rfl)
    (fun _ => .of_all rfl) hwalks
  intro entry _
  unfold Function.comp initializer
  repeat' first | exact Writes.join_nil | exact Runs.of_plain? rfl | apply Writes.join_cons
  exact Runs.choice (Gives.compare (Gives.of_value? rfl) (Gives.integer 0) (Runs.isZero entry.1))

/-- The declaration of a structure. -/
theorem writes_declaration (hcount : body.Countable) :
    Writes (declarationScope typeName body info room) invoke declarationTree
      (declaration typeName body info) := by
  have hroom : 0 < (declarationScope typeName body info room).room := Nat.succ_pos _
  unfold declarationTree declaration
  repeat' first | exact Writes.join_nil | exact Runs.of_plain? rfl | apply Writes.join_cons
  · apply Runs.loop_name hroom (fun _ => .of_all rfl) (Walks.list (Gives.of_value? rfl))
    intro constant _
    exact Writes.of_plainAll? rfl
  · apply Runs.loop_name hroom (fun _ => .of_all rfl) (Walks.list (Gives.of_value? rfl))
    intro field _
    exact Writes.of_plainAll? rfl
  · exact Runs.branch (Gives.of_value? rfl) (fun h => writes_tag (hcount h)) (fun _ => Writes.nil)
  · apply Runs.loop_name hroom (fun _ => .of_all rfl) (Walks.list (Gives.of_value? rfl))
    intro constant _
    exact Writes.of_plainAll? rfl
  · rw [BodyContext.members, List.map_map]
    apply Runs.loop_name hroom (fun _ => .of_all rfl) (Walks.list (Gives.of_value? rfl))
    intro field _
    exact writes_memberDeclaration field
  · exact runs_initializers
  · cases info with
    | none => exact Runs.branch_false (Gives.of_value? rfl) rfl rfl rfl Writes.nil
    | some names => exact Runs.branch_true (Gives.of_value? rfl) rfl rfl rfl (writes_info names)

end Declaration

section Definitions

variable (nameScope typeName : String) (body : BodyContext)

/-- The scope of the routine that defines the members of a structure. -/
def definitionsScope (room : Nat) : Scope where
  names := definitionsRoutine.parameters.zip [.text nameScope, .text typeName,
    fieldValues body.fields, constantValues body.constants, .boolean body.isUnion] ++ shared
  closures := [shared]
  room := room + 2

/-- The scope of a codec function. -/
def codecScope (room : Nat) (op selfType : String) : Scope :=
  (definitionsScope nameScope typeName body room).inside
    (["op", "self_type"].zip [.text op, .text selfType])

variable {nameScope typeName body} {invoke : Invoke} {room : Nat} {op selfType : String}

/-- The codec function of a union. -/
theorem writes_switch : Writes (codecScope nameScope typeName body room op selfType) invoke
    switchTree (switchStatements op body.members) := by
  unfold switchTree switchStatements
  rw [BodyContext.members, List.map_map]
  repeat' first | exact Writes.join_nil | exact Runs.of_plain? rfl | apply Writes.join_cons
  apply Runs.loop_name (Nat.succ_pos _) (fun _ => .of_all rfl) (Walks.list (Gives.of_value? rfl))
  intro field _
  exact Writes.of_plainAll? rfl

/-- The codec function of fields that follow each other. -/
theorem writes_calls : Writes (codecScope nameScope typeName body room op selfType) invoke
    callsTree (callStatements op body.members) := by
  unfold callsTree callStatements
  rw [BodyContext.members, numbered_map, List.map_map]
  repeat' first | exact Writes.join_nil | exact Runs.of_plain? rfl | apply Writes.join_cons
  apply Runs.loop_names ["i", "last", "f"] (Nat.succ_pos _) (by decide) (fun _ => rfl)
    (fun _ => .of_all rfl) (walks_fields rfl rfl)
  intro entry _
  unfold Function.comp codecCall
  repeat' first | exact Writes.join_nil | exact Runs.of_plain? rfl | apply Writes.join_cons
  apply Runs.branch (Gives.of_value? rfl)
  · intro _
    exact Writes.of_plainAll? rfl
  · intro _
    repeat' first | exact Writes.join_nil | exact Runs.of_plain? rfl | apply Writes.join_cons
    exact Runs.choice (Gives.of_value? rfl)

/-- The start of a codec function, cut where its body begins. -/
theorem codecOpening_eq : codecOpening = codecParameters ++ parameterUses := by
  simp [codecOpening, codecParameters, parameterUses]

/-- The definition of a codec function. -/
theorem writes_codec : Writes (codecScope nameScope typeName body room op selfType) invoke
    codecTree (codecDefinition op selfType nameScope typeName body.isUnion body.members) := by
  have htext : codecDefinition op selfType nameScope typeName body.isUnion body.members =
      String.join ["\ntemplate <int _tmpl>\nint ", nameScope, typeName, "<_tmpl>::", op, "(",
        selfType, codecOpening, if body.isUnion then switchStatements op body.members
          else callStatements op body.members, "\x7d\n"] := by
    unfold codecDefinition codecBody
    rw [codecOpening_eq]
    simp only [String.join_cons, String.append_assoc]
  rw [htext]
  unfold codecTree
  repeat' first | exact Writes.join_nil | exact Runs.of_plain? rfl | apply Writes.join_cons
  exact Runs.branch (Gives.of_value? rfl) (fun _ => writes_switch) (fun _ => writes_calls)

/-- A field is compared unless it is padding. -/
theorem writes_memberComparison (field : FieldContext) :
    Writes ((definitionsScope nameScope typeName body room).inside [("f", field.value)]) invoke
      [when (.not (attr "f" "void"))
        [.text "    if (!(",
         .output (attr "f" "name"),
         .text " == rhs.",
         .output (attr "f" "name"),
         .text "))\n    \x7b\n        return false;\n    \x7d\n"]]
      (memberComparison field.member) := by
  have hvoid : Gives ((definitionsScope nameScope typeName body room).inside
      [("f", field.value)]) invoke (attr "f" "void") (.boolean field.isVoid) :=
    Gives.of_value? rfl
  apply Writes.single
  apply Runs.branch (hvoid.not rfl rfl)
  · intro _
    exact Writes.of_plainAll? rfl
  · intro _
    exact Writes.nil

/-- The definitions of the members of a structure. -/
theorem writes_definitions : Writes (definitionsScope nameScope typeName body room) invoke
    definitionsTree (definitions nameScope typeName body) := by
  have hroom : 0 < (definitionsScope nameScope typeName body room).room := Nat.succ_pos _
  unfold definitionsTree definitions
  repeat' first | exact Writes.join_nil | exact Runs.of_plain? rfl | apply Writes.join_cons
  · exact Runs.branch (Gives.of_value? rfl) (fun _ => Writes.single (Runs.text _))
      (fun _ => Writes.nil)
  · rw [BodyContext.members, List.map_map]
    apply Runs.loop_name hroom (fun _ => .of_all rfl) (Walks.list (Gives.of_value? rfl))
    intro field _
    exact writes_memberComparison field
  · have hwalks : Walks (definitionsScope nameScope typeName body room) (evaluate invoke
        (.list [.list [.text "encode", .text "ParameterType"],
          .list [.text "decode", .text "ReferenceType"]]))
        (codecFunctions.map fun function => .list [.text function.1, .text function.2]) := by
      apply Walks.list
      apply Gives.list
      repeat' first | exact Gives.list (.of_values? rfl) | exact .nil | refine .cons (by simp) ?_ ?_
    apply Runs.loop_names ["op", "self_type"] hroom (by decide) (fun _ => rfl)
      (fun _ => .of_all rfl) hwalks
    intro function _
    exact writes_codec
  · apply Runs.loop_name hroom (fun _ => .of_all rfl) (Walks.list (Gives.of_value? rfl))
    intro constant _
    exact Writes.of_plainAll? rfl

end Definitions

/-! ## Headers -/

section Header

variable (context : Context)

/-- The scope of the statements outside the routines. -/
def headerScope : Scope where
  names := [("struct_defs", .routine definitionsRoutine (some 0)),
    ("struct_body", .routine declarationRoutine (some 0)), ("indent", .function .indent),
    ("t", context.value)]
  closures := [shared]
  room := maxDepth - 1

variable {context} {levels : Nat}

/-- The routine that declares a structure can be called for any body. -/
theorem takes_declaration (typeName : String) (body : BodyContext) (info : Option NameContext) :
    declarationRoutine.Takes (headerScope context) 0 shared [.text typeName,
      fieldValues body.fields, constantValues body.constants, .boolean body.isUnion,
      infoValue body info] where
  room := by
    change callCost + 1 ≤ maxDepth - 1
    decide
  parameters := rfl
  defaults := rfl
  caller := by decide +kernel
  keywords found hlast := by
    cases info with
    | none => exact absurd hlast (by simp [infoValue])
    | some names => exact absurd hlast (by simp [infoValue, Context.value, Value.ascending])
  known := rfl
  lasting := .of_all rfl
  names := by
    cases info with
    | none => exact .of_all rfl
    | some names => exact .of_all rfl

/-- A call of the routine that declares a structure. -/
theorem gives_declaration {typeName : String} {body : BodyContext} {info : Option NameContext}
    (hcount : body.Countable)
    {arguments : List Expr} (hvalues : Expr.values? (headerScope context).names arguments =
      some [.text typeName, fieldValues body.fields, constantValues body.constants,
        .boolean body.isUnion, infoValue body info]) :
    Gives (headerScope context) (jump (levels + 1)) (call "struct_body" arguments)
      (.text (declaration typeName body info)) := by
  apply Gives.call rfl (by decide) (.of_values? hvalues)
  exact Runs.routine (takes_declaration typeName body info) (writes_declaration hcount)

/-- A call of the routine that defines the members of a structure. -/
theorem gives_definitions {nameScope typeName : String} {body : BodyContext}
    {arguments : List Expr}
    (harguments : GivesAll (headerScope context) (jump (levels + 1)) arguments
      [.text nameScope, .text typeName, fieldValues body.fields, constantValues body.constants,
        .boolean body.isUnion]) :
    Gives (headerScope context) (jump (levels + 1)) (call "struct_defs" arguments)
      (.text (definitions nameScope typeName body)) := by
  apply Gives.call rfl (by decide) harguments
  have hroom : callCost + 1 ≤ maxDepth - 1 := by decide
  have hcaller : definitionsRoutine.asksCaller = false := by decide +kernel
  exact Runs.routine ⟨hroom, rfl, rfl, hcaller, by simp, rfl, .of_all rfl, .of_all rfl⟩
    writes_definitions

/-- The declaration of a structure outside all others. -/
theorem runs_declaration {typeName : String} {body : BodyContext} {info : Option NameContext}
    (hcount : body.Countable)
    {arguments : List Expr} (hvalues : Expr.values? (headerScope context).names arguments =
      some [.text typeName, fieldValues body.fields, constantValues body.constants,
        .boolean body.isUnion, infoValue body info]) :
    Runs (headerScope context) (execute (jump (levels + 1))
      (.output (call "struct_body" arguments))) () (declaration typeName body info) :=
  Runs.output (gives_declaration hcount hvalues) (.text _) (by simp [call, loopName])

/-- The declaration of a structure inside another one. -/
theorem runs_nested {typeName : String} {body : BodyContext}
    (hcount : body.Countable)
    {arguments : List Expr} (hvalues : Expr.values? (headerScope context).names arguments =
      some [.text typeName, fieldValues body.fields, constantValues body.constants,
        .boolean body.isUnion, .nothing]) :
    Runs (headerScope context) (execute (jump (levels + 1))
      (.output (call "indent" [call "struct_body" arguments]))) ()
      (indented defaultIndent (declaration typeName body none)) := by
  have hdeclaration : Gives (headerScope context) (jump (levels + 1))
      (call "struct_body" arguments) (.text (declaration typeName body none)) :=
    gives_declaration hcount hvalues
  have hindent : Gives (headerScope context) (jump (levels + 1))
      (call "indent" [call "struct_body" arguments])
      (.text (indented defaultIndent (declaration typeName body none))) :=
    Gives.call rfl (by decide) (.cons (by simp [call]) hdeclaration .nil) (Runs.indent _)
  exact Runs.output hindent (.text _) (by simp [call, loopName])

/-- The definitions of the members of a structure. -/
theorem runs_definitions {nameScope typeName : String} {body : BodyContext}
    {arguments : List Expr}
    (harguments : GivesAll (headerScope context) (jump (levels + 1)) arguments
      [.text nameScope, .text typeName, fieldValues body.fields, constantValues body.constants,
        .boolean body.isUnion]) :
    Runs (headerScope context) (execute (jump (levels + 1))
      (.output (call "struct_defs" arguments))) () (definitions nameScope typeName body) :=
  Runs.output (gives_definitions harguments) (.text _) (by simp [call, loopName])

/-- What comes before the structures. -/
theorem writes_opening {invoke : Invoke} :
    Writes (headerScope context) invoke openingTree (Layout.opening context.names) := by
  obtain ⟨⟨_, _, _, _, spaces, _, _, includes, portId, _⟩, bodies⟩ := context
  unfold openingTree Layout.opening
  cases portId <;> cases bodies
  all_goals
    repeat' first | exact Writes.join_nil | exact Runs.of_plain? rfl | apply Writes.join_cons
  all_goals
    apply Runs.loop_name (Nat.succ_pos _) (fun _ => .of_all rfl) (Walks.list (Gives.of_value? rfl))
    intro name _
    exact Writes.of_plainAll? rfl

/-- The registration of a type with a fixed port identifier. -/
theorem runs_registration {invoke : Invoke} :
    Runs (headerScope context) (execute invoke (when (attr "t" "has_fixed_port_id")
      [.text "\nnamespace\n\x7b\n\nconst ::uavcan::DefaultDataTypeRegistrator< ",
       .output (attr "t" "cpp_full_type_name"),
       .text " > _uavcan_gdtr_registrator_",
       .output (attr "t" "short_name"),
       .text ";\n\n\x7d\n"])) () (registration context.names) := by
  obtain ⟨⟨_, _, _, _, _, _, _, _, portId, _⟩, bodies⟩ := context
  cases portId with
  | none =>
    cases bodies <;> exact Runs.branch_false (Gives.of_value? rfl) rfl rfl rfl Writes.nil
  | some portId =>
    cases bodies <;>
      exact Runs.branch_true (Gives.of_value? rfl) rfl rfl rfl (Writes.of_plainAll? rfl)

/-- What comes after the structures. -/
theorem writes_closing {invoke : Invoke} :
    Writes (headerScope context) invoke closingTree (closing context.names) := by
  apply Writes.join_cons runs_registration
  obtain ⟨⟨_, _, _, _, spaces, _, _, _, portId, _⟩, bodies⟩ := context
  have hreverse : spaces.reverse.map Value.text = (spaces.map Value.text).reverse :=
    List.map_reverse
  cases portId <;> cases bodies
  all_goals
    repeat' first | exact Writes.join_nil | exact Runs.of_plain? rfl | apply Writes.join_cons
  all_goals
    apply Runs.loop_name (Nat.succ_pos _) (fun _ => .of_all rfl)
      (hreverse ▸ Walks.derived (Gives.filter (Gives.of_value? rfl) .nil (Runs.reverse _)))
    intro space _
    exact Writes.of_plainAll? rfl

/-- The structure of a message. -/
theorem writes_message {names : NameContext} {body : BodyContext}
    (hcount : body.Countable) :
    Writes (headerScope ⟨names, .message body⟩) (jump (levels + 1)) messageTree
      (messageContent names body) := by
  obtain ⟨_, _, _, _, _, _, _, _, portId, _⟩ := names
  unfold messageTree messageContent
  cases portId
  all_goals
    repeat' first | exact Writes.join_nil | exact Runs.of_plain? rfl | apply Writes.join_cons
  · exact runs_declaration hcount rfl
  · exact runs_definitions (.of_values? rfl)
  · exact runs_declaration hcount rfl
  · exact runs_definitions (.of_values? rfl)

/-- The structures of a service. -/
theorem writes_service {names : NameContext} {request response : BodyContext}
    (hrequest : request.Countable)
    (hresponse : response.Countable) :
    Writes (headerScope ⟨names, .service request response⟩) (jump (levels + 1)) serviceTree
      (serviceContent names request response) := by
  have hscope : Gives (headerScope ⟨names, .service request response⟩) (jump (levels + 1))
      (.binary .concat (attr "t" "cpp_type_name") (.text "::")) (.text (names.typeName ++ "::")) :=
    Gives.binary (Gives.of_value? rfl) (Gives.text _) (Runs.concat _ _)
  obtain ⟨_, _, _, _, _, _, _, _, portId, _⟩ := names
  unfold serviceTree serviceContent
  cases portId with
  | none =>
    repeat' first | exact Writes.join_nil | exact Runs.of_plain? rfl | apply Writes.join_cons
    · exact runs_nested hrequest rfl
    · exact runs_nested hresponse rfl
    · exact Runs.branch_false (Gives.of_value? rfl) rfl rfl rfl Writes.nil
    · exact runs_definitions (.cons (by simp) hscope (.of_values? rfl))
    · exact runs_definitions (.cons (by simp) hscope (.of_values? rfl))
  | some portId =>
    repeat' first | exact Writes.join_nil | exact Runs.of_plain? rfl | apply Writes.join_cons
    · exact runs_nested hrequest rfl
    · exact runs_nested hresponse rfl
    · exact Runs.branch_true (Gives.of_value? rfl) rfl rfl rfl (Writes.of_plainAll? rfl)
    · exact runs_definitions (.cons (by simp) hscope (.of_values? rfl))
    · exact runs_definitions (.cons (by simp) hscope (.of_values? rfl))

end Header

/-! ## The template -/

/-- What becomes of the state when a routine is met. -/
theorem routine_run (invoke : Invoke) (machine : Machine) {routine : Routine} {names : List String}
    (hcaptured : routine.captured = names) :
    (execute invoke routine.stmt).run machine =
      .ok ((), (machine.captureAll names).1.store routine.name
        (.routine routine (machine.captureAll names).2)) := by
  rw [← hcaptured, Routine.stmt, execute]
  rfl

/-- The state once both routines were met. -/
def ready (context : Context) : Machine :=
  let first := (Machine.start (contextNames context)).captureAll
    ["enum_last_value", "len", "enumerate"]
  let second := (first.1.store "struct_body" (.routine declarationRoutine first.2)).captureAll
    ["enum_last_value"]
  second.1.store "struct_defs" (.routine definitionsRoutine second.2)

/-- Both routines are met before any text is written. -/
theorem executeAll_tree_run (invoke : Invoke) (context : Context) :
    (executeAll invoke tree).run (Machine.start (contextNames context)) =
      (executeAll invoke contentTree).run (ready context) := by
  have hdeclaration : declarationRoutine.captured = ["enum_last_value", "len", "enumerate"] := by
    decide +kernel
  have hdefinitions : definitionsRoutine.captured = ["enum_last_value"] := by decide +kernel
  rw [tree, executeAll, run_bind_of_ok (routine_run invoke _ hdeclaration), executeAll,
    run_bind_of_ok (routine_run invoke _ hdefinitions)]
  rfl

/-- The state after the routines knows all names that the header needs. -/
theorem headerScope_holdsIn (context : Context) :
    (headerScope context).HoldsIn (ready context) where
  lasting := by
    obtain ⟨names, bodies⟩ := context
    cases bodies <;> exact .of_all rfl
  known name value h := by
    have hmem := Bindings.mem_of_find? h
    simp only [headerScope, List.mem_cons, List.not_mem_nil, or_false, Prod.mk.injEq] at hmem
    rcases hmem with ⟨rfl, rfl⟩ | ⟨rfl, rfl⟩ | ⟨rfl, rfl⟩ | ⟨rfl, rfl⟩ <;> rfl
  closures := rfl
  room := by
    have hdepth : (ready context).depth = 1 := rfl
    have hroom : 1 + (maxDepth - 1) ≤ maxDepth := by decide
    rwa [hdepth]

/-- The comparison that tells messages from services. -/
theorem gives_isMessage {context : Context} {invoke : Invoke} :
    Gives (headerScope context) invoke (.compare (attr "t" "kind") [.equal] [.text "Message"])
      (.boolean (context.kind == "Message")) := by
  have hkind : Gives (headerScope context) invoke (attr "t" "kind") (.text context.kind) := by
    obtain ⟨⟨_, _, _, _, _, _, _, _, portId, _⟩, bodies⟩ := context
    cases portId <;> cases bodies <;> exact Gives.of_value? rfl
  exact Gives.compare hkind (Gives.text "Message") (Runs.equalTexts _ _)

/-- The structures of a header. -/
theorem runs_content {levels : Nat} {context : Context}
    (hcount : ∀ body ∈ context.bodies.list, body.Countable) :
    Runs (headerScope context) (execute (jump (levels + 1))
      (.choose (.compare (attr "t" "kind") [.equal] [.text "Message"]) messageTree serviceTree)) ()
      (Layout.content context.names context.bodies) := by
  obtain ⟨names, bodies⟩ := context
  cases bodies with
  | message body =>
    have hbody := hcount body List.mem_cons_self
    exact Runs.branch_true gives_isMessage rfl rfl rfl (writes_message hbody)
  | service request response =>
    have hrequest := hcount request List.mem_cons_self
    have hresponse := hcount response (List.mem_cons_of_mem _ List.mem_cons_self)
    exact Runs.branch_false gives_isMessage rfl rfl rfl (writes_service hrequest hresponse)

/-- The expansion of the shipped template is the header of the context. -/
theorem expand_shipped (path : String) {context : Context}
    (hcount : ∀ body ∈ context.bodies.list, body.Countable) :
    Compiled.expand ⟨path, tree⟩ context = .ok (Layout.header context) := by
  have hcontent : Writes (headerScope context) (jump maxDepth) contentTree
      (Layout.header context) := by
    unfold Layout.header
    rw [String.append_assoc]
    exact writes_opening.append (Writes.cons (runs_content hcount) writes_closing)
  obtain ⟨made, hmade⟩ := hcontent (ready context) (headerScope_holdsIn context)
  unfold Compiled.expand expandAll
  rw [executeAll_tree_run, hmade]
  have houtput : (ready context).output = "" := rfl
  simp [Except.map, Machine.after, houtput]

end DsdlHeaders.Template.Shipped
