import DsdlHeaders.Proofs.Document.Attributes
import DsdlHeaders.Proofs.Header.Codec
import DsdlHeaders.Proofs.Header.Guard
import DsdlHeaders.Proofs.Header.Independence
import DsdlHeaders.Proofs.Header.Location

/-!
# Names in headers

A header is compiled, so the names that a context puts into it have to be identifiers, and its
includes and type expressions have to be made of identifiers.

* **`Context.ProperlyNamed`** says this of a context, by its texts alone.
* **What the check of a model ensures**: all spellings of a definition's own name are identifiers
  (`Definition.isIdentifier_of_mem_identifiers`), and so are the names of its members, padding
  included (`isIdentifier_of_mem_declaredMembers`).
* **What it leaves open**: the full names of the types that fields refer to, and the names of
  constants. The name of a referenced type stands in an include and in a type expression, and the
  two are proper exactly when the name is (`Field.isTypeExpr_iff`); an include alone may hide a
  separator in the name, and a type expression a whole other expression.

Main statement: `properlyNamed_iff_of_validate`, with `names_not_checked` for valid models that are
not properly named.
-/

namespace DsdlHeaders

/-! ## Proper texts -/

/-- One or more identifiers with a mark in between. -/
def IdentifiersJoined (mark text : String) : Prop :=
  ∃ parts, parts ≠ [] ∧ (∀ part ∈ parts, isIdentifier part = true) ∧
    text = String.intercalate mark parts

/-- A name from the global name space. -/
def IsQualified (text : String) : Prop :=
  ∃ name, IdentifiersJoined "::" name ∧ text = "::" ++ name

/-- The path of a header with the given extension. -/
def IsHeaderPath (extension text : String) : Prop :=
  ∃ stem, IdentifiersJoined "/" stem ∧ text = stem ++ "." ++ extension

/-- Type expressions: those of scalars, qualified names, and arrays of type expressions. -/
inductive IsTypeExpr : String → Prop
  | scalar (scalar : Primitive) : IsTypeExpr scalar.typeExpr
  | qualified {text : String} (name : IsQualified text) : IsTypeExpr text
  | array {element : String} (sizing : Sizing) (inner : IsTypeExpr element) :
      IsTypeExpr ("::uavcan::Array< " ++ element ++ ", " ++ sizing.arguments ++ " >")

/-- The spellings of a definition's own name that stand alone in a header. -/
def NameContext.identifiers (names : NameContext) : List String :=
  names.spaces ++ [names.shortName, names.typeName, names.uniqueId, names.guard]

/-- The names of the members and constants of a body. -/
def BodyContext.identifiers (body : BodyContext) : List String :=
  body.members.map Member.name ++ body.constants.map ConstantContext.name

/-- A context all of whose names can stand in a header. -/
structure Context.ProperlyNamed (context : Context) (extension : String) : Prop where
  own : ∀ name ∈ context.names.identifiers, isIdentifier name = true
  qualified : IsQualified context.names.qualifiedName
  members : ∀ body ∈ context.bodies.list, ∀ name ∈ body.identifiers, isIdentifier name = true
  includes : ∀ path ∈ context.names.includes, IsHeaderPath extension path
  types : ∀ body ∈ context.bodies.list, ∀ field ∈ body.fields, IsTypeExpr field.typeExpr

/-! ## Full names -/

/-- The parts of a proper full name are identifiers, and a name with such parts is proper. -/
theorem isFullName_iff_forall_components {name : String} :
    isFullName name = true ↔ ∀ part ∈ nameComponents name, isIdentifier part = true := by
  simp [isFullName, nameComponents, isIdentifier]

/-- Every name has a part. -/
theorem nameComponents_ne_nil (name : String) : nameComponents name ≠ [] := by
  simp [nameComponents, Text.splitOn_ne_nil]

/-- A qualified name has the parts of the dotted name. -/
theorem qualifiedName_eq (name : String) :
    qualifiedName name = "::" ++ String.intercalate "::" (nameComponents name) := by
  apply String.ext
  simp [qualifiedName, nameComponents, Text.replaceChar_eq_joinWith, Text.joinWith_eq_intercalate,
    String.toList_intercalate, List.map_map, Function.comp_def]

/-- The qualified form of a proper full name. -/
theorem isQualified_of_isFullName {name : String} (h : isFullName name = true) :
    IsQualified (qualifiedName name) :=
  ⟨_, ⟨nameComponents name, nameComponents_ne_nil name, isFullName_iff_forall_components.mp h, rfl⟩,
    qualifiedName_eq name⟩

/-- The include path of a type with a proper full name. -/
theorem isHeaderPath_of_isFullName {target : Definition} (extension : String)
    (h : isFullName target.fullName = true) :
    IsHeaderPath extension (target.includePath extension) :=
  ⟨_, ⟨target.components, nameComponents_ne_nil _, isFullName_iff_forall_components.mp h, rfl⟩, rfl⟩

/-- A name without separators of paths is proper when its header path is. -/
theorem isFullName_of_isHeaderPath {target : Definition} {extension : String}
    (hpath : IsHeaderPath extension (target.includePath extension))
    (hslash : '/' ∉ target.fullName.toList) : isFullName target.fullName = true := by
  obtain ⟨stem, ⟨parts, hne, hparts, rfl⟩, hstem⟩ := hpath
  have hjoined : String.intercalate "/" target.components = String.intercalate "/" parts := by
    rw [Definition.includePath, String.append_left_inj, String.append_left_inj] at hstem
    exact hstem
  have hchars : Text.joinWith ['/'] (target.components.map String.toList) =
      Text.joinWith ['/'] (parts.map String.toList) := by
    have hlists := congrArg String.toList hjoined
    rwa [String.toList_intercalate, String.toList_intercalate, ← Text.joinWith_eq_intercalate,
      ← Text.joinWith_eq_intercalate] at hlists
  have hfree : ∀ part ∈ target.components.map String.toList, '/' ∉ part := by
    intro part hpart hmem
    apply hslash
    rw [← Text.joinWith_splitOn '.' target.fullName.toList]
    apply Text.mem_joinWith _ hmem
    simpa [Definition.components, nameComponents, List.map_map, Function.comp_def] using hpart
  have hfree' : ∀ part ∈ parts.map String.toList, '/' ∉ part := by
    intro part hpart
    obtain ⟨name, hname, rfl⟩ := List.mem_map.mp hpart
    exact Text.not_mem_of_isIdentifier (hparts name hname) (by decide)
  have hsame : target.components.map String.toList = parts.map String.toList := by
    apply Text.eq_of_joinWith_eq _ _ hfree hfree' hchars
    · simp [Definition.components, nameComponents_ne_nil]
    · simpa using hne
  have hcomponents : target.components = parts :=
    List.map_injective_iff.mpr (fun _ _ heq => String.toList_injective heq) hsame
  rw [isFullName_iff_forall_components]
  intro part hpart
  exact hparts part (hcomponents ▸ hpart)

/-! ## Type expressions -/

/-- Joined identifiers consist of the mark and of letters, digits and underscores. -/
theorem IdentifiersJoined.mem_cases {mark text : String} (h : IdentifiersJoined mark text)
    {c : Char} (hc : c ∈ text.toList) : c ∈ mark.toList ∨ Text.isNamePart c = true := by
  obtain ⟨parts, -, hparts, rfl⟩ := h
  rw [String.toList_intercalate, ← Text.joinWith_eq_intercalate] at hc
  rcases Text.mem_of_mem_joinWith hc with hmark | ⟨part, hpart, hc⟩
  · exact .inl hmark
  · obtain ⟨name, hname, rfl⟩ := List.mem_map.mp hpart
    exact .inr (Text.isNamePart_of_mem (hparts name hname) hc)

/-- The characters of type expressions. -/
def isTypeChar (c : Char) : Bool :=
  Text.isNamePart c || [':', '<', '>', ',', ' '].contains c

/-- Numbers can stand in type expressions. -/
theorem all_isTypeChar_toString (n : Nat) : (toString n).toList.all isTypeChar = true := by
  rw [List.all_eq_true]
  intro c hc
  simp [isTypeChar, Text.isNamePart, Text.isDigit_of_mem_toString hc]

/-- The characters of an integer specification are those of its arguments and of type
expressions. -/
theorem all_isTypeChar_integerSpec (bits : Nat) {signedness cast : String}
    (hsigned : signedness.toList.all isTypeChar = true)
    (hcast : cast.toList.all isTypeChar = true) :
    (integerSpec bits signedness cast).toList.all isTypeChar = true := by
  have hbits := all_isTypeChar_toString bits
  unfold integerSpec
  generalize toString bits = width at hbits ⊢
  simp only [String.toList_append, List.all_append, hbits, hsigned, hcast, Bool.and_true]
  decide

/-- The characters of the expressions of scalars. -/
theorem all_isTypeChar_scalar (scalar : Primitive) :
    scalar.typeExpr.toList.all isTypeChar = true := by
  have hbits := all_isTypeChar_toString scalar.bits
  have hcast : scalar.cast.token.toList.all isTypeChar = true := by cases scalar.cast <;> decide
  unfold Primitive.typeExpr
  cases scalar.kind with
  | floating =>
    generalize toString scalar.bits = width at hbits ⊢
    simp only [String.toList_append, List.all_append, hbits, hcast, Bool.and_true]
    decide
  | boolean => exact all_isTypeChar_integerSpec _ (by decide) hcast
  | unsigned => exact all_isTypeChar_integerSpec _ (by decide) hcast
  | signed => exact all_isTypeChar_integerSpec _ (by decide) hcast

/-- The characters of the mode and the size of an array. -/
theorem all_isTypeChar_arguments (sizing : Sizing) :
    sizing.arguments.toList.all isTypeChar = true := by
  have hjoined : ∀ (mode : String) (size : Nat), mode.toList.all isTypeChar = true →
      (mode ++ toString size).toList.all isTypeChar = true := by
    intro mode size hmode
    rw [String.toList_append, List.all_append, hmode, all_isTypeChar_toString, Bool.and_self]
  cases sizing with
  | static size => exact hjoined _ size (by decide)
  | dynamic limit => exact hjoined _ limit (by decide)

/-- The characters of type expressions, arrays and names included. -/
theorem IsTypeExpr.all_isTypeChar {text : String} (h : IsTypeExpr text) :
    text.toList.all isTypeChar = true := by
  induction h with
  | scalar scalar => exact all_isTypeChar_scalar scalar
  | qualified name =>
    obtain ⟨joined, hjoined, rfl⟩ := name
    rw [String.toList_append, List.all_append, Bool.and_eq_true]
    refine ⟨by decide, List.all_eq_true.mpr fun c hc => ?_⟩
    rcases hjoined.mem_cases hc with hmark | hpart
    · exact List.all_eq_true.mp (by decide : "::".toList.all isTypeChar = true) c hmark
    · simp [isTypeChar, hpart]
  | array sizing _ ih =>
    have hsizing := all_isTypeChar_arguments sizing
    simp only [String.toList_append, List.all_append, ih, hsizing, Bool.and_true]
    decide

/-- Type expressions hold no separators of paths. -/
theorem IsTypeExpr.slash_not_mem {text : String} (h : IsTypeExpr text) : '/' ∉ text.toList := by
  intro hslash
  exact absurd (List.all_eq_true.mp h.all_isTypeChar _ hslash) (by decide)

/-- The expression of a type is proper when the name inside its arrays is. -/
theorem isTypeExpr_of_typeExprWithin {levels : Nat} {type : DataType} {text : String}
    (h : type.typeExprWithin levels = some text)
    (hname : ∀ target, type.innermost = .compound target → isFullName target.fullName = true) :
    IsTypeExpr text := by
  induction levels generalizing type text with
  | zero => exact absurd h (by simp [DataType.typeExprWithin])
  | succ levels ih =>
    cases type with
    | primitive scalar =>
      obtain rfl := Option.some.inj h
      exact .scalar scalar
    | void bits =>
      obtain rfl := Option.some.inj h
      exact .scalar ⟨.unsigned, bits, .saturated⟩
    | compound target =>
      obtain rfl := Option.some.inj h
      exact .qualified (isQualified_of_isFullName (hname target rfl))
    | array element sizing =>
      obtain ⟨inner, hinner, rfl⟩ := Option.map_eq_some_iff.mp h
      exact .array sizing (ih hinner hname)

/-- The name inside the arrays of a type stands in the expression of the type. -/
theorem mem_of_typeExprWithin {levels : Nat} {type : DataType} {text : String}
    {target : Definition} (h : type.typeExprWithin levels = some text)
    (htarget : type.innermost = .compound target) {c : Char}
    (hc : c ∈ (qualifiedName target.fullName).toList) : c ∈ text.toList := by
  induction levels generalizing type text with
  | zero => exact absurd h (by simp [DataType.typeExprWithin])
  | succ levels ih =>
    cases type with
    | primitive scalar => exact absurd htarget (by simp [DataType.innermost])
    | void bits => exact absurd htarget (by simp [DataType.innermost])
    | compound other =>
      obtain rfl := DataType.compound.inj htarget
      obtain rfl := Option.some.inj h
      exact hc
    | array element sizing =>
      obtain ⟨inner, hinner, rfl⟩ := Option.map_eq_some_iff.mp h
      have hmem := ih hinner htarget
      simp [hmem]

/-- Of a field whose target has a proper header path, the type expression is proper exactly when the
target has a proper full name. -/
theorem Field.isTypeExpr_iff {field : Field} {extension text : String}
    (h : field.type.typeExpr? = some text)
    (hpath : ∀ target, field.target? = some target →
      IsHeaderPath extension (target.includePath extension)) :
    IsTypeExpr text ↔ ∀ target, field.target? = some target →
      isFullName target.fullName = true := by
  have htarget : ∀ target, field.target? = some target ↔
      field.type.innermost = .compound target := by
    intro target
    unfold Field.target?
    split <;> simp_all
  simp only [htarget] at hpath ⊢
  constructor
  · intro hexpr target hinner
    apply isFullName_of_isHeaderPath (hpath target hinner)
    intro hslash
    apply hexpr.slash_not_mem
    apply mem_of_typeExprWithin h hinner
    rw [qualifiedName, String.toList_ofList, List.mem_append]
    exact .inr (Text.mem_replaceChar (by decide) hslash)
  · intro hnames
    exact isTypeExpr_of_typeExprWithin h hnames

/-! ## Spellings of the own name -/

/-- A proper full name starts like an identifier, and dots are its only other characters. -/
theorem exists_cons_of_isFullName {name : String} (h : isFullName name = true) :
    ∃ c s, name.toList = c :: s ∧ Text.isNameStart c = true ∧
      ∀ d ∈ s, d = '.' ∨ Text.isNamePart d = true := by
  have hparts := List.all_eq_true.mp h
  have hchars : ∀ d ∈ name.toList, d = '.' ∨ Text.isNamePart d = true := by
    intro d hd
    by_cases hdot : d = '.'
    · exact .inl hdot
    · obtain ⟨part, hpart, hin⟩ := Text.exists_part_of_mem hdot hd
      exact .inr (Text.isNamePart_of_mem (hparts part hpart) hin)
  rcases hname : name.toList with _ | ⟨c, s⟩
  · rw [hname] at hparts
    exact absurd (hparts [] (by simp [Text.splitOn])) (by decide)
  · rw [hname] at hparts hchars
    refine ⟨c, s, rfl, ?_, fun d hd => hchars d (List.mem_cons_of_mem _ hd)⟩
    by_cases hdot : c = '.'
    · subst hdot
      exact absurd (hparts [] (by simp [Text.splitOn])) (by decide)
    · obtain ⟨part, parts, -, hsplit⟩ := Text.splitOn_cons_of_ne hdot s
      have hfirst := hparts (c :: part) (by simp [hsplit])
      rw [Text.isIdentifier, Bool.and_eq_true] at hfirst
      exact hfirst.1

/-- The characters of identifiers are stood for by such characters, and so is the dot. -/
theorem isNamePart_guardChar {c : Char} (h : c = '.' ∨ Text.isNamePart c = true) :
    Text.isNamePart (guardChar c) = true := by
  rcases h with rfl | h
  · rfl
  · have hascii : c.toNat < 128 := by
      have hrange := Text.toNat_of_isNamePart h
      omega
    exact ascii_forall (P := fun c => Text.isNamePart c = true →
      Text.isNamePart (guardChar c) = true) (by decide +kernel) hascii h

/-- What an identifier may start with is stood for by such a character. -/
theorem isNameStart_guardChar {c : Char} (h : Text.isNameStart c = true) :
    Text.isNameStart (guardChar c) = true := by
  have hpart : Text.isNamePart c = true :=
    Text.isNamePart_of_mem (s := [c]) (by simp [Text.isIdentifier, h]) List.mem_cons_self
  have hascii : c.toNat < 128 := by
    have hrange := Text.toNat_of_isNamePart hpart
    omega
  exact ascii_forall (P := fun c => Text.isNameStart c = true →
    Text.isNameStart (guardChar c) = true) (by decide +kernel) hascii h

/-- The unique identifier of a definition is an identifier. -/
theorem Definition.isIdentifier_uniqueId {definition : Definition}
    (h : isFullName definition.fullName = true) : isIdentifier definition.uniqueId = true := by
  obtain ⟨c, s, hname, hstart, hrest⟩ := exists_cons_of_isFullName h
  have hspelled := upper_replaceChar fun d => toNat_of_mem_fullName h (c := d)
  rw [isIdentifier, uniqueId, String.toList_ofList, hspelled, hname, List.map_cons,
    Text.isIdentifier, isNameStart_guardChar hstart, Bool.true_and, List.all_map, List.all_eq_true]
  intro d hd
  exact isNamePart_guardChar (hrest d hd)

/-- An identifier with a suffix of letters, digits and underscores. -/
theorem isIdentifier_append {name suffix : String} (hname : isIdentifier name = true)
    (hsuffix : suffix.toList.all Text.isNamePart = true) :
    isIdentifier (name ++ suffix) = true := by
  rw [isIdentifier, String.toList_append]
  exact Text.isIdentifier_append hname (List.all_eq_true.mp hsuffix)

/-- All spellings of a definition's own name are identifiers. -/
theorem Definition.isIdentifier_of_mem_identifiers {definition : Definition} {extension : String}
    (h : isFullName definition.fullName = true) {name : String}
    (hname : name ∈ (definition.nameContext extension).identifiers) :
    isIdentifier name = true := by
  have hparts : ∀ part ∈ definition.spaces ++ [definition.shortName], isIdentifier part = true :=
    fun part hpart => isIdentifier_of_mem_components h (definition.components_eq ▸ hpart)
  have hshort := hparts definition.shortName (by simp)
  have hunique := definition.isIdentifier_uniqueId h
  rcases List.mem_append.mp hname with hspace | hname
  · exact hparts name (List.mem_append_left _ hspace)
  · simp only [nameContext, List.mem_cons, List.not_mem_nil, or_false] at hname
    rcases hname with rfl | rfl | rfl | rfl
    · exact hshort
    · exact isIdentifier_append hshort (by decide)
    · exact hunique
    · exact isIdentifier_append hunique (by decide)

/-! ## Members and constants -/

/-- The names of valid fields, and those given to padding, are identifiers. -/
theorem isIdentifier_of_mem_declaredMembers {paddings : Nat} {fields : List Field}
    (h : ∀ field ∈ fields, field.Valid) {member : Member}
    (hmember : member ∈ declaredMembers paddings fields) : isIdentifier member.name = true := by
  induction fields generalizing paddings with
  | nil => exact absurd hmember List.not_mem_nil
  | cons field fields ih =>
    obtain ⟨hfield, hfields⟩ := List.forall_mem_cons.mp h
    rw [declaredMembers] at hmember
    split at hmember
    · rcases List.mem_cons.mp hmember with rfl | hmember
      · apply isIdentifier_append (by decide)
        apply List.all_eq_true.mpr
        intro c hc
        simp [Text.isNamePart, Text.isDigit_of_mem_toString hc]
      · exact ih hfields hmember
    · rename_i hvoid
      rcases List.mem_cons.mp hmember with rfl | hmember
      · obtain ⟨name, hname⟩ := Option.ne_none_iff_exists'.mp (hfield.named.not.mpr hvoid)
        have hspelled := hfield.spelled name hname
        rw [isFieldName, Bool.and_eq_true] at hspelled
        rw [hname]
        exact hspelled.1
      · exact ih hfields hmember

/-- The results of a function on a list, item by item. -/
theorem forall₂_of_mapM {α β ε : Type} {f : α → Except ε β} {xs : List α} {ys : List β}
    (h : xs.mapM f = .ok ys) : List.Forall₂ (fun x y => f x = .ok y) xs ys := by
  induction xs generalizing ys with
  | nil =>
    obtain rfl := Except.ok.inj h
    exact .nil
  | cons x xs ih =>
    rw [List.mapM_cons] at h
    obtain ⟨y, hy, hrest⟩ := bind_eq_ok_iff.mp h
    obtain ⟨others, hothers, hys⟩ := bind_eq_ok_iff.mp hrest
    obtain rfl := Except.ok.inj hys
    exact .cons hy (ih hothers)

/-- The fields of a context have the type expressions of the declared ones. -/
theorem typeExprs_of_fieldContexts {type : String} {index paddings : Nat} {fields : List Field}
    {found : List FieldContext} (h : fieldContexts type index paddings fields = .ok found) :
    List.Forall₂ (fun field entry => field.type.typeExpr? = some entry.typeExpr) fields found := by
  induction fields generalizing index paddings found with
  | nil =>
    obtain rfl := Except.ok.inj h
    exact .nil
  | cons field fields ih =>
    unfold fieldContexts at h
    split at h
    · exact absurd h (by simp)
    · rename_i typeExpr hexpr
      split at h
      · obtain ⟨later, hlater, hfound⟩ := bind_eq_ok_iff.mp h
        obtain rfl := Except.ok.inj hfound
        exact .cons hexpr (ih hlater)
      · split at h
        · exact absurd h (by simp)
        · obtain ⟨later, hlater, hfound⟩ := bind_eq_ok_iff.mp h
          obtain rfl := Except.ok.inj hfound
          exact .cons hexpr (ih hlater)

/-- The names in the context of a valid body are identifiers exactly when those of its constants
are. -/
theorem Body.isIdentifier_iff {type : String} {body : Body} {found : BodyContext}
    (hvalid : body.Valid) (h : body.context type = .ok found) :
    (∀ name ∈ found.identifiers, isIdentifier name = true) ↔
      ∀ constant ∈ body.constants, isIdentifier constant.name = true := by
  have hmembers : ∀ member ∈ found.members, isIdentifier member.name = true := by
    intro member hmember
    rw [(Body.members_of_context h).1] at hmember
    exact isIdentifier_of_mem_declaredMembers hvalid.fields hmember
  obtain ⟨fields, -, hrest⟩ := bind_eq_ok_iff.mp h
  obtain ⟨constants, hconstants, hfound⟩ := bind_eq_ok_iff.mp hrest
  have hsame : found.constants = constants := by
    obtain rfl := Except.ok.inj hfound
    rfl
  have hspelled : (∀ entry ∈ constants, isIdentifier entry.name = true) ↔
      ∀ constant ∈ body.constants, isIdentifier constant.name = true := by
    apply forall_iff_of_forall₂ (forall₂_of_mapM hconstants)
    intro constant _ entry hentry
    unfold Constant.context at hentry
    split at hentry
    · exact absurd hentry (by simp)
    · obtain rfl := Except.ok.inj hentry
      rfl
  rw [BodyContext.identifiers, List.forall_mem_append, List.forall_mem_map, List.forall_mem_map,
    hsame, hspelled]
  exact and_iff_right hmembers

/-- The type expressions in the context of a body are proper exactly when the names that its fields
refer to are, given that these have proper header paths. -/
theorem Body.isTypeExpr_iff {type extension : String} {body : Body} {found : BodyContext}
    (hpaths : ∀ target ∈ body.fields.filterMap Field.target?,
      IsHeaderPath extension (target.includePath extension))
    (h : body.context type = .ok found) :
    (∀ field ∈ found.fields, IsTypeExpr field.typeExpr) ↔
      ∀ target ∈ body.fields.filterMap Field.target?, isFullName target.fullName = true := by
  obtain ⟨fields, hfields, hrest⟩ := bind_eq_ok_iff.mp h
  obtain ⟨constants, -, hfound⟩ := bind_eq_ok_iff.mp hrest
  obtain rfl := Except.ok.inj hfound
  have hiff : (∀ entry ∈ fields, IsTypeExpr entry.typeExpr) ↔ ∀ field ∈ body.fields,
      ∀ target, field.target? = some target → isFullName target.fullName = true := by
    apply forall_iff_of_forall₂ (typeExprs_of_fieldContexts hfields)
    intro field hfield entry hexpr
    apply Field.isTypeExpr_iff hexpr
    intro target htarget
    exact hpaths target (List.mem_filterMap.mpr ⟨field, hfield, htarget⟩)
  rw [hiff]
  constructor
  · intro hnames target htarget
    obtain ⟨field, hfield, htarget⟩ := List.mem_filterMap.mp htarget
    exact hnames field hfield target htarget
  · intro hnames field hfield target htarget
    exact hnames target (List.mem_filterMap.mpr ⟨field, hfield, htarget⟩)

/-! ## Definitions -/

/-- What an ascending list holds after an insertion. -/
theorem mem_insertAscending {text other : String} {texts : List String} :
    other ∈ insertAscending text texts ↔ other = text ∨ other ∈ texts := by
  induction texts with
  | nil => simp [insertAscending]
  | cons head tail ih =>
    unfold insertAscending
    split_ifs with hless hsame
    · simp
    · subst hsame
      simp
    · rw [List.mem_cons, ih, List.mem_cons, or_left_comm]

/-- The includes of a definition are the header paths of the types that it refers to. -/
theorem Definition.mem_includes {definition : Definition} {extension path : String} :
    path ∈ definition.includes extension ↔
      ∃ target ∈ definition.referenced, target.includePath extension = path := by
  have hfold : ∀ texts : List String, path ∈ texts.foldr insertAscending [] ↔ path ∈ texts := by
    intro texts
    induction texts with
    | nil => simp
    | cons text texts ih => rw [List.foldr_cons, mem_insertAscending, ih, List.mem_cons]
  rw [includes, hfold, List.mem_map]

/-- The types that a definition refers to are those of its bodies. -/
theorem Definition.forall_referenced_iff {definition : Definition} {P : Definition → Prop} :
    (∀ target ∈ definition.referenced, P target) ↔
      ∀ body ∈ definition.bodies, ∀ target ∈ body.fields.filterMap Field.target?, P target := by
  rw [referenced_eq]
  simp only [List.mem_flatMap, forall_exists_index, and_imp]
  exact ⟨fun h body hbody target ht => h target body hbody ht,
    fun h target body hbody ht => h body hbody target ht⟩

/-- The includes and the type expressions of a context are proper exactly when all names that the
definition refers to are. -/
theorem Definition.references_iff {definition : Definition} {extension : String}
    {context : Context} (h : definition.context extension = .ok context) :
    ((∀ path ∈ definition.includes extension, IsHeaderPath extension path) ∧
      ∀ body ∈ context.bodies.list, ∀ field ∈ body.fields, IsTypeExpr field.typeExpr) ↔
    ∀ target ∈ definition.referenced, isFullName target.fullName = true := by
  have hincludes : (∀ path ∈ definition.includes extension, IsHeaderPath extension path) ↔
      ∀ target ∈ definition.referenced, IsHeaderPath extension (target.includePath extension) := by
    simp only [Definition.mem_includes, forall_exists_index, and_imp, forall_apply_eq_imp_iff₂]
  have htypes : (∀ target ∈ definition.referenced,
        IsHeaderPath extension (target.includePath extension)) →
      ((∀ body ∈ context.bodies.list, ∀ field ∈ body.fields, IsTypeExpr field.typeExpr) ↔
        ∀ target ∈ definition.referenced, isFullName target.fullName = true) := by
    intro hpaths
    rw [Definition.forall_referenced_iff] at hpaths ⊢
    apply forall_iff_of_forall₂ (Definition.bodies_of_context h)
    intro body hbody found hfound
    exact Body.isTypeExpr_iff (hpaths body hbody) hfound
  rw [hincludes]
  constructor
  · rintro ⟨hpaths, hexprs⟩
    exact (htypes hpaths).mp hexprs
  · intro hnames
    have hpaths : ∀ target ∈ definition.referenced,
        IsHeaderPath extension (target.includePath extension) :=
      fun target htarget => isHeaderPath_of_isFullName extension (hnames target htarget)
    exact ⟨hpaths, (htypes hpaths).mpr hnames⟩

/-- **What the check of a model leaves to its definitions.** The context of a definition of a valid
model is properly named exactly when the full names that its fields refer to, inside all arrays, are
proper and the names of its constants are identifiers. -/
theorem properlyNamed_iff_of_validate {definitions : List Definition} {definition : Definition}
    {extension : String} {context : Context} (h : validate definitions = .ok ())
    (hdefinition : definition ∈ definitions)
    (hcontext : definition.context extension = .ok context) :
    context.ProperlyNamed extension ↔
      (∀ target ∈ definition.referenced, isFullName target.fullName = true) ∧
      ∀ body ∈ definition.bodies, ∀ constant ∈ body.constants,
        isIdentifier constant.name = true := by
  have hvalid := (validate_eq_ok_iff.mp h).each definition hdefinition
  have hnames := Definition.names_of_context hcontext
  have hreferences := Definition.references_iff hcontext
  have hmembers : (∀ body ∈ context.bodies.list, ∀ name ∈ body.identifiers,
        isIdentifier name = true) ↔
      ∀ body ∈ definition.bodies, ∀ constant ∈ body.constants,
        isIdentifier constant.name = true := by
    apply forall_iff_of_forall₂ (Definition.bodies_of_context hcontext)
    intro body hbody found hfound
    exact Body.isIdentifier_iff (hvalid.bodies body hbody) hfound
  constructor
  · intro hproper
    have hincludes := hproper.includes
    rw [hnames] at hincludes
    exact ⟨hreferences.mp ⟨hincludes, hproper.types⟩, hmembers.mp hproper.members⟩
  · rintro ⟨htargets, hconstants⟩
    obtain ⟨hincludes, htypes⟩ := hreferences.mpr htargets
    refine ⟨?_, ?_, hmembers.mpr hconstants, ?_, htypes⟩
    · rw [hnames]
      intro name hname
      exact Definition.isIdentifier_of_mem_identifiers hvalid.name hname
    · rw [hnames]
      exact isQualified_of_isFullName hvalid.name
    · rwa [hnames]

/-- A message with rows of cells, of a type that is defined elsewhere. -/
def gridOf (cell : String) : Definition :=
  .message "site.Grid" none (.mk
    [.mk none (.void 3),
      .mk (some "rows") (.array (.array (.compound (.reference cell)) (.dynamic 4)) (.static 2))]
    [⟨"ROWS", ⟨.unsigned, 8, .saturated⟩, "2"⟩] false)

/-- A service with one constant in its response. -/
def queryWith (constant : String) : Definition :=
  .service "site.Query" (some 7) (.empty false)
    (.mk [] [⟨constant, ⟨.signed, 16, .truncated⟩, "-1"⟩] true)

/-- Three valid definitions, one for each outcome: a grid of `site.Cell` is properly named, while a
query with a constant `not ready` and a grid of `site/Cell` are not. -/
theorem properlyNamed_grid_query :
    validate [gridOf "site.Cell", queryWith "not ready"] = .ok () ∧
    validate [gridOf "site/Cell"] = .ok () ∧ ∃ grid query slashed,
    (gridOf "site.Cell").context defaultExtension = .ok grid ∧
    (queryWith "not ready").context defaultExtension = .ok query ∧
    (gridOf "site/Cell").context defaultExtension = .ok slashed ∧
    grid.ProperlyNamed defaultExtension ∧ ¬ query.ProperlyNamed defaultExtension ∧
    ¬ slashed.ProperlyNamed defaultExtension := by
  have hvalid : validate [gridOf "site.Cell", queryWith "not ready"] = .ok () := by decide +kernel
  have hslashed : validate [gridOf "site/Cell"] = .ok () := by decide +kernel
  refine ⟨hvalid, hslashed, _, _, _, rfl, rfl, rfl, ?_, ?_, ?_⟩
  · apply (properlyNamed_iff_of_validate hvalid (.head _) rfl).mpr
    exact ⟨by decide +kernel, by decide +kernel⟩
  · intro hproper
    have hconstants := ((properlyNamed_iff_of_validate hvalid (.tail _ (.head _)) rfl).mp hproper).2
    exact absurd hconstants (by decide +kernel)
  · intro hproper
    have htargets := ((properlyNamed_iff_of_validate hslashed (.head _) rfl).mp hproper).1
    exact absurd htargets (by decide +kernel)

/-- The check of a model looks neither at the names that fields refer to nor at those of
constants. -/
theorem names_not_checked :
    (¬ ∀ definitions, validate definitions = .ok () → ∀ definition ∈ definitions,
      ∀ target ∈ definition.referenced, isFullName target.fullName = true) ∧
    ¬ ∀ definitions, validate definitions = .ok () → ∀ definition ∈ definitions,
      ∀ body ∈ definition.bodies, ∀ constant ∈ body.constants,
        isIdentifier constant.name = true := by
  constructor
  · intro h
    have htargets := h [gridOf "no such..cell"] (by decide +kernel) _ (.head _)
    exact absurd htargets (by decide +kernel)
  · intro h
    have hconstants := h [queryWith "not ready"] (by decide +kernel) _ (.head _)
    exact absurd hconstants (by decide +kernel)

end DsdlHeaders
