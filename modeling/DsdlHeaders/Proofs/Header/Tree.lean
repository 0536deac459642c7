import DsdlHeaders.Proofs.Header.Layout
import DsdlHeaders.Template.Compiled
import DsdlHeaders.Template.Shipped

/-!
# The tree of the shipped template

The statements that the shipped template consists of. `compile_source` says that the template
compiles, and to these statements.

Reading is a computation on the characters of the template. It is checked against the parts that
the tree is written with (`Written`): an expression is written with the tokens of `Expr.tokens`,
and every block ends with the word that closes it.
-/

namespace DsdlHeaders.Template

/-! ## How trees are written -/

mutual

/-- The tokens of an expression. Lists inside a list are parenthesised. -/
def Expr.tokens : Expr → List Token
  | .name n => [.name n]
  | .text s => [.text s]
  | .integer n => [.integer n]
  | .nothing => [.name "none"]
  | .list items => .symbol .bracketOpen :: Expr.tokensAll items ++ [.symbol .bracketClose]
  | .not operand => .name "not" :: operand.tokens
  | .binary .subtract left right => left.tokens ++ .symbol .minus :: right.tokens
  | .binary .concat left right => left.tokens ++ .symbol .tilde :: right.tokens
  | .compare first [.equal] operands =>
    first.tokens ++ .symbol .equal :: Expr.tokensAll operands
  | .choose condition yes no =>
    yes.tokens ++ .name "if" :: condition.tokens ++ .name "else" :: no.tokens
  | .member object m => object.tokens ++ [.symbol .dot, .name m]
  | .call callee arguments _ _ =>
    callee.tokens ++ .symbol .parenOpen :: Expr.tokensAll arguments ++ [.symbol .parenClose]
  | .filter f operand [] _ _ => operand.tokens ++ [.symbol .pipe, .name f]
  | .filter f operand arguments _ _ =>
    operand.tokens ++ .symbol .pipe :: .name f :: .symbol .parenOpen ::
      Expr.tokensAll arguments ++ [.symbol .parenClose]
  | _ => []

/-- The tokens of expressions with commas between them. -/
def Expr.tokensAll : List Expr → List Token
  | [] => []
  | .list items :: [] =>
    .symbol .parenOpen :: Expr.tokensAll items ++ [.symbol .parenClose]
  | .list items :: rest =>
    .symbol .parenOpen :: Expr.tokensAll items ++ .symbol .parenClose :: .symbol .comma ::
      Expr.tokensAll rest
  | e :: [] => e.tokens
  | e :: rest => e.tokens ++ .symbol .comma :: Expr.tokensAll rest

end

/-- The tokens of a target. -/
def Target.tokens : Target → List Token
  | .name n => [.name n]
  | .unpack targets => Expr.tokensAll (targets.flatMap fun target => target.assigned.map .name)
  | .member object m => (Expr.member object m).tokens

/-- A statement part that starts with a word. -/
def Part.command (word : String) (tokens : List Token) : Part :=
  .tagged .statement (.name word :: tokens)

/-- The parts that statements are written with. -/
inductive Written : List Stmt → List Part → Prop where
  | nil : Written [] []
  | text {s : String} {chars : List Char} {rest : List Stmt} {parts : List Part}
    (hs : s = String.ofList chars) (hrest : Written rest parts) :
    Written (.text s :: rest) (.literal chars :: parts)
  | output {e : Expr} {rest : List Stmt} {parts : List Part} (hrest : Written rest parts) :
    Written (.output e :: rest) (.tagged .output e.tokens :: parts)
  | loop {target : Target} {items : Expr} {body rest : List Stmt} {inner parts : List Part}
    (hbody : Written body inner) (hrest : Written rest parts) :
    Written (.loop ⟨target, items, none, false⟩ body [] :: rest)
      (.command "for" (target.tokens ++ .name "in" :: items.tokens) ::
        inner ++ .command "endfor" [] :: parts)
  | branch {condition : Expr} {yes rest : List Stmt} {inner parts : List Part}
    (hyes : Written yes inner) (hrest : Written rest parts) :
    Written (.choose condition yes [] :: rest)
      (.command "if" condition.tokens :: inner ++ .command "endif" [] :: parts)
  | branches {condition : Expr} {yes no rest : List Stmt} {inner other parts : List Part}
    (hyes : Written yes inner) (hno : Written no other) (hrest : Written rest parts) :
    Written (.choose condition yes no :: rest)
      (.command "if" condition.tokens :: inner ++ .command "else" [] :: other ++
        .command "endif" [] :: parts)
  | routine {name : String} {parameters : List String} {body rest : List Stmt}
    {inner parts : List Part} (hbody : Written body inner) (hrest : Written rest parts) :
    Written (.routine name parameters [] body :: rest)
      (.command "macro" (.name name :: .symbol .parenOpen ::
          Expr.tokensAll (parameters.map .name) ++ [.symbol .parenClose]) ::
        inner ++ .command "endmacro" [] :: parts)

/-- A template compiles if it has parts and they can be read. -/
theorem compile_eq_ok (path : String) {source : List Char} {found : List Part} {body : List Stmt}
    (hparts : (Primitive.lowered (Extended.toPrimitive source)).toOption.bind parts = some found)
    (hread : ofParts found = some body) : compile path source = .ok ⟨path, body⟩ := by
  unfold compile statements
  cases hlowered : Primitive.lowered (Extended.toPrimitive source) with
  | error error =>
    rw [hlowered] at hparts
    exact absurd hparts (by simp [Except.toOption])
  | ok text =>
    rw [hlowered] at hparts
    have htext : parts text = some found := hparts
    simp only [htext, Option.bind_some, hread]

/-- The statement that makes a routine known. -/
def Routine.stmt (routine : Routine) : Stmt :=
  .routine routine.name routine.parameters routine.defaults routine.body

namespace Shipped

open Layout

/-! ## The tree -/

/-- A member of what a name stands for. -/
def attr (object name : String) : Expr :=
  .member (.name object) name

/-- A call by name. -/
def call (name : String) (arguments : List Expr) : Expr :=
  .call (.name name) arguments [] []

/-- A loop over all items. -/
def each (target : Target) (items : Expr) (body : List Stmt) : Stmt :=
  .loop ⟨target, items, none, false⟩ body []

/-- Statements that count only under a condition. -/
def when (condition : Expr) (body : List Stmt) : Stmt :=
  .choose condition body []

/-- The tag of a union. -/
def tagTree : List Stmt :=
  [.text "\n    enum Tag\n    \x7b\n",
   each (.unpack [.name "i", .name "last", .name "f"]) (call "enum_last_value" [.name "fields"])
     [.text "        Tag_",
      .output (attr "f" "name"),
      .text " = ",
      .output (.name "i"),
      .output (.choose (.name "last") (.text "") (.text ",")),
      .text "\n"],
   .text "    \x7d;\n\n    typedef ::uavcan::IntegerSpec< ::uavcan::IntegerBitLen< ",
   .output (.binary .subtract (call "len" [.name "fields"]) (.integer 1)),
   .text tagType]

/-- What a message declares about itself. -/
def infoTree : List Stmt :=
  [.text "\n    static const ::uavcan::DataTypeKind DataTypeKind = ",
   .output (attr "info" "cpp_kind"),
   .text ";\n",
   when (attr "info" "has_fixed_port_id")
     [.text "    enum \x7b DefaultDataTypeID = ",
      .output (attr "info" "fixed_port_id"),
      .text " \x7d;\n"],
   .text "\n    static const char* getDataTypeFullName()\n    \x7b\n        return \"",
   .output (attr "info" "full_name"),
   .text messageSignature]

/-- The declaration of a structure. -/
def declarationTree : List Stmt :=
  [.text "template <int _tmpl>\nstruct UAVCAN_EXPORT ",
   .output (.name "type_name"),
   .text "\n\x7b\n    typedef const ",
   .output (.name "type_name"),
   .text "<_tmpl>& ParameterType;\n    typedef ",
   .output (.name "type_name"),
   .text "<_tmpl>& ReferenceType;\n\n    struct ConstantTypes\n    \x7b\n",
   each (.name "c") (.name "constants")
     [.text "        typedef ",
      .output (attr "c" "cpp_type"),
      .text " ",
      .output (attr "c" "name"),
      .text ";\n"],
   .text "    \x7d;\n\n    struct FieldTypes\n    \x7b\n",
   each (.name "f") (.name "fields")
     [.text "        typedef ",
      .output (attr "f" "cpp_type"),
      .text " ",
      .output (attr "f" "name"),
      .text ";\n"],
   .text "    \x7d;\n",
   when (.name "union") tagTree,
   .text "\n    // Constants\n",
   each (.name "c") (.name "constants")
     [.text "    static const typename ::uavcan::StorageType< typename ConstantTypes::",
      .output (attr "c" "name"),
      .text " >::Type ",
      .output (attr "c" "name"),
      .text "; // ",
      .output (attr "c" "value"),
      .text "\n"],
   .text "\n    // Fields\n",
   each (.name "f") (.name "fields")
     [when (.not (attr "f" "void"))
        [.text "    typename ::uavcan::StorageType< typename FieldTypes::",
         .output (attr "f" "name"),
         .text " >::Type ",
         .output (attr "f" "name"),
         .text ";\n"]],
   .text "\n    ",
   .output (.name "type_name"),
   .text "()\n",
   each (.unpack [.name "i", .name "f"])
     (call "enumerate" [.filter "rejectattr" (.name "fields") [.text "void"] [] []])
     [.text "        ",
      .output (.choose (.compare (.name "i") [.equal] [.integer 0]) (.text ":") (.text ",")),
      .text " ",
      .output (attr "f" "name"),
      .text "()\n"],
   .text prototypes,
   when (.name "info") infoTree,
   .text "\x7d;\n"]

/-- The statements of a codec function for a union: the tag, then the field that it selects. -/
def switchTree : List Stmt :=
  [.text "    const int res = TagType::",
   .output (.name "op"),
   .text switchOpening,
   each (.name "f") (.name "fields")
     [.text "    case Tag_",
      .output (attr "f" "name"),
      .text ":\n        return FieldTypes::",
      .output (attr "f" "name"),
      .text "::",
      .output (.name "op"),
      .text "(self.",
      .output (attr "f" "name"),
      .text ", codec, tao_mode);\n"],
   .text "    default:\n        return -1;\n    \x7d\n"]

/-- The statements of a codec function for fields that follow each other. -/
def callsTree : List Stmt :=
  [.text "    int res = 1;\n",
   each (.unpack [.name "i", .name "last", .name "f"]) (call "enum_last_value" [.name "fields"])
     [.choose (attr "f" "void")
        [.text "    \x7b\n        typename ::uavcan::StorageType< typename FieldTypes::",
         .output (attr "f" "name"),
         .text " >::Type padding = 0;\n        res = FieldTypes::",
         .output (attr "f" "name"),
         .text "::",
         .output (.name "op"),
         .text "(padding, codec, ::uavcan::TailArrayOptDisabled);\n    \x7d\n"]
        [.text "    res = FieldTypes::",
         .output (attr "f" "name"),
         .text "::",
         .output (.name "op"),
         .text "(self.",
         .output (attr "f" "name"),
         .text ", codec,  ",
         .output (.choose (.name "last")
           (.text "tao_mode") (.text "::uavcan::TailArrayOptDisabled")),
         .text ");\n"],
      .text "    if (res <= 0)\n    \x7b\n        return res;\n    \x7d\n"],
   .text "    return res;\n"]

/-- The parameters of a codec function and the start of its body. -/
def codecOpening : String :=
  " self, ::uavcan::ScalarCodec& codec,\n    ::uavcan::TailArrayOptimizationMode tao_mode)\n\x7b\n    (void)self;\n    (void)codec;\n    (void)tao_mode;\n"

/-- A codec function. -/
def codecTree : List Stmt :=
  [.text "\ntemplate <int _tmpl>\nint ",
   .output (.name "scope"),
   .output (.name "type_name"),
   .text "<_tmpl>::",
   .output (.name "op"),
   .text "(",
   .output (.name "self_type"),
   .text codecOpening,
   .choose (.name "union") switchTree callsTree,
   .text "\x7d\n"]

/-- The definitions of the members of a structure. -/
def definitionsTree : List Stmt :=
  [.text "template <int _tmpl>\nbool ",
   .output (.name "scope"),
   .output (.name "type_name"),
   .text "<_tmpl>::operator==(ParameterType rhs) const\n\x7b\n    (void)rhs;\n",
   when (.name "union")
     [.text "    if (_tag_ != rhs._tag_)\n    \x7b\n        return false;\n    \x7d\n"],
   each (.name "f") (.name "fields")
     [when (.not (attr "f" "void"))
        [.text "    if (!(",
         .output (attr "f" "name"),
         .text " == rhs.",
         .output (attr "f" "name"),
         .text "))\n    \x7b\n        return false;\n    \x7d\n"]],
   .text "    return true;\n\x7d\n",
   each (.unpack [.name "op", .name "self_type"])
     (.list [.list [.text "encode", .text "ParameterType"],
       .list [.text "decode", .text "ReferenceType"]])
     codecTree,
   each (.name "c") (.name "constants")
     [.text "\ntemplate <int _tmpl>\nconst typename ::uavcan::StorageType< typename ",
      .output (.name "scope"),
      .output (.name "type_name"),
      .text "<_tmpl>::ConstantTypes::",
      .output (attr "c" "name"),
      .text " >::Type\n    ",
      .output (.name "scope"),
      .output (.name "type_name"),
      .text "<_tmpl>::",
      .output (attr "c" "name"),
      .text " = ",
      .output (attr "c" "cpp_value"),
      .text "; // ",
      .output (attr "c" "value"),
      .text "\n"]]

/-- What a message declares and defines. -/
def messageTree : List Stmt :=
  [.output (call "struct_body" [attr "t" "cpp_type_name", attr "t" "fields",
     attr "t" "constants", attr "t" "union", .name "t"]),
   .text "\n\n",
   .output (call "struct_defs" [.text "", attr "t" "cpp_type_name", attr "t" "fields",
     attr "t" "constants", attr "t" "union"]),
   .text "\n\ntypedef ",
   .output (attr "t" "cpp_type_name"),
   .text "<0> ",
   .output (attr "t" "short_name"),
   .text ";\n"]

/-- What a service declares and defines. -/
def serviceTree : List Stmt :=
  [.text "struct UAVCAN_EXPORT ",
   .output (attr "t" "cpp_type_name"),
   .text "\n\x7b\n",
   .output (call "indent" [call "struct_body" [.text "Request_", attr "t" "request_fields",
     attr "t" "request_constants", attr "t" "request_union", .nothing]]),
   .text "\n\n",
   .output (call "indent" [call "struct_body" [.text "Response_", attr "t" "response_fields",
     attr "t" "response_constants", attr "t" "response_union", .nothing]]),
   .text serviceTypes,
   .output (attr "t" "cpp_kind"),
   .text ";\n",
   when (attr "t" "has_fixed_port_id")
     [.text "    enum \x7b DefaultDataTypeID = ",
      .output (attr "t" "fixed_port_id"),
      .text " \x7d;\n"],
   .text "\n    static const char* getDataTypeFullName()\n    \x7b\n        return \"",
   .output (attr "t" "full_name"),
   .text serviceSignature,
   .output (call "struct_defs" [.binary .concat (attr "t" "cpp_type_name") (.text "::"),
     .text "Request_", attr "t" "request_fields", attr "t" "request_constants",
     attr "t" "request_union"]),
   .text "\n\n",
   .output (call "struct_defs" [.binary .concat (attr "t" "cpp_type_name") (.text "::"),
     .text "Response_", attr "t" "response_fields", attr "t" "response_constants",
     attr "t" "response_union"]),
   .text "\n\ntypedef ",
   .output (attr "t" "cpp_type_name"),
   .text " ",
   .output (attr "t" "short_name"),
   .text ";\n"]

/-- What comes before the structures. -/
def openingTree : List Stmt :=
  [.text leadingComment,
   .output (attr "t" "full_name"),
   .text "\n */\n\n#ifndef ",
   .output (attr "t" "include_guard"),
   .text "\n#define ",
   .output (attr "t" "include_guard"),
   .text standardIncludes,
   each (.name "inc") (attr "t" "includes")
     [.text "#include <",
      .output (.name "inc"),
      .text ">\n"],
   .text "\n",
   each (.name "nsc") (attr "t" "namespace_components")
     [.text "namespace ",
      .output (.name "nsc"),
      .text "\n\x7b\n"],
   .text "\n"]

/-- What comes after the structures. -/
def closingTree : List Stmt :=
  [when (attr "t" "has_fixed_port_id")
     [.text "\nnamespace\n\x7b\n\nconst ::uavcan::DefaultDataTypeRegistrator< ",
      .output (attr "t" "cpp_full_type_name"),
      .text " > _uavcan_gdtr_registrator_",
      .output (attr "t" "short_name"),
      .text ";\n\n\x7d\n"],
   .text "\n",
   each (.name "nsc") (.filter "reverse" (attr "t" "namespace_components") [] [] [])
     [.text "\x7d // Namespace ",
      .output (.name "nsc"),
      .text "\n"],
   .text "\n#endif // ",
   .output (attr "t" "include_guard"),
   .text "\n"]

/-- The routine that declares a structure. -/
def declarationRoutine : Routine :=
  ⟨"struct_body", ["type_name", "fields", "constants", "union", "info"], [], declarationTree⟩

/-- The routine that defines the members of a structure. -/
def definitionsRoutine : Routine :=
  ⟨"struct_defs", ["scope", "type_name", "fields", "constants", "union"], [], definitionsTree⟩

/-- The statements outside the routines. -/
def contentTree : List Stmt :=
  openingTree ++
    (.choose (.compare (attr "t" "kind") [.equal] [.text "Message"]) messageTree serviceTree ::
      closingTree)

/-- The statements of the template. -/
def tree : List Stmt :=
  declarationRoutine.stmt :: definitionsRoutine.stmt :: contentTree

/-! ## Reading the template -/

/-- Lines with their characters written out. -/
theorem flatMap_line {line : String} {lines : List String} {chars rest : List Char}
    (hline : line = String.ofList chars)
    (hrest : (lines.flatMap fun line => line.toList ++ ['\n']) = rest) :
    ((line :: lines).flatMap fun line => line.toList ++ ['\n']) = chars ++ '\n' :: rest := by
  rw [List.flatMap_cons, hrest, hline, String.toList_ofList, List.append_assoc]
  rfl

set_option maxRecDepth 100000 in
/-- The parts of the template are those of its tree. -/
theorem exists_written : ∃ parts', Written tree parts' ∧ ofParts parts' = some tree ∧
    (Primitive.lowered (Extended.toPrimitive source)).toOption.bind parts = some parts' := by
  have hsource : ∃ chars parts', source = chars ∧ Written tree parts' ∧
      ofParts parts' = some tree ∧
      (Primitive.lowered (Extended.toPrimitive chars)).toOption.bind parts = some parts' := by
    apply Exists.intro
    apply Exists.intro
    refine ⟨?spelled, ?written, ?read, ?found⟩
    case spelled =>
      unfold source lines structBody structDefinitions opening content
      simp only [List.cons_append, List.nil_append]
      repeat (apply flatMap_line; · exact rfl)
      exact List.flatMap_nil
    case written => repeat' first | exact rfl | constructor
    case read => rfl
    case found => decide +kernel
  obtain ⟨chars, parts', hchars, hwritten, hread, hparts⟩ := hsource
  exact ⟨parts', hwritten, hread, hchars ▸ hparts⟩

/-- The template compiles, and to its tree. -/
theorem compile_source (path : String) : compile path source = .ok ⟨path, tree⟩ := by
  obtain ⟨found, -, hread, hparts⟩ := exists_written
  exact compile_eq_ok path hparts hread

end Shipped

end DsdlHeaders.Template
