import DsdlHeaders.Proofs.Header.Bracing
import DsdlHeaders.Proofs.Header.Constants
import DsdlHeaders.Proofs.Header.Names

/-!
# The inline texts of a context

The texts that a context contributes to a header are put into lines of the header, so a brace or a
line feed in one of them would change the structure of the whole text. None of them has one when the
names in it are proper.

* **Names, paths and types** consist of identifiers and a few marks (`IdentifiersJoined.isInline`,
  `IsTypeExpr.isInline`).
* **Literals** of constants are written with letters, digits, signs and points only, because
  building the context has read them as numbers (`isInline_of_spelling`).
* **Contexts.** `NameContext.Inline` and `BodyContext.Inline` say it of all texts of a context;
  `Definition.inline_of_context` derives both for a valid definition.
-/

namespace DsdlHeaders

open Layout

/-! ## Characters -/

/-- A text is inline when all its characters are of a class that braces and line feeds are not. -/
theorem isInline_of_forall (allowed : Char → Bool) {text : String}
    (h : ∀ c ∈ text.toList, allowed c = true) (hopen : allowed '\x7b' = false)
    (hclose : allowed '\x7d' = false) (hend : allowed '\n' = false) : IsInline text := by
  intro c hc
  have hallowed := h c hc
  refine ⟨?_, ?_, ?_⟩
  · rintro rfl
    exact absurd hallowed (by simp [hopen])
  · rintro rfl
    exact absurd hallowed (by simp [hclose])
  · rintro rfl
    exact absurd hallowed (by simp [hend])

/-- Natural numbers are inline. -/
theorem isInline_toString (n : Nat) : IsInline (toString n) :=
  isInline_of_forall Text.isDigit (fun _ hc => Text.isDigit_of_mem_toString hc)
    rfl rfl rfl

/-- Integers are inline. -/
theorem isInline_toString_int (n : Int) : IsInline (toString n) := by
  cases n with
  | ofNat n => exact isInline_toString n
  | negSucc n =>
    have hsign : IsInline "-" := by decide
    exact isInline_append.mpr ⟨hsign, isInline_toString (n + 1)⟩

/-- Identifiers are inline. -/
theorem isInline_of_isIdentifier {name : String} (h : isIdentifier name = true) :
    IsInline name :=
  isInline_of_forall Text.isNamePart (fun _ hc => Text.isNamePart_of_mem h hc)
    rfl rfl rfl

/-- Identifiers that are joined by an inline mark are inline. -/
theorem IdentifiersJoined.isInline {mark text : String} (h : IdentifiersJoined mark text)
    (hmark : IsInline mark) : IsInline text := by
  intro c hc
  rcases h.mem_cases hc with hc | hc
  · exact hmark c hc
  · have hchar : IsInline (String.ofList [c]) := by
      apply isInline_of_forall Text.isNamePart _ rfl rfl rfl
      simpa using hc
    exact hchar c (by simp)

/-- A proper full name is its parts with dots in between. -/
theorem identifiersJoined_of_isFullName {name : String} (h : isFullName name = true) :
    IdentifiersJoined "." name := by
  refine ⟨nameComponents name, nameComponents_ne_nil name,
    isFullName_iff_forall_components.mp h, ?_⟩
  apply String.ext
  rw [String.toList_intercalate, ← Text.joinWith_eq_intercalate]
  simpa [nameComponents, List.map_map, Function.comp_def] using
    (Text.joinWith_splitOn '.' name.toList).symm

/-- Qualified names are inline. -/
theorem IsQualified.isInline {text : String} (h : IsQualified text) : IsInline text := by
  obtain ⟨name, hname, rfl⟩ := h
  have hmark : IsInline "::" := by decide
  exact isInline_append.mpr ⟨hmark, hname.isInline hmark⟩

/-- Header paths are inline when their extension is. -/
theorem IsHeaderPath.isInline {extension text : String} (h : IsHeaderPath extension text)
    (hextension : IsInline extension) : IsInline text := by
  obtain ⟨stem, hstem, rfl⟩ := h
  rw [isInline_append, isInline_append]
  exact ⟨⟨hstem.isInline (by decide), by decide⟩, hextension⟩

/-- Type expressions are inline. -/
theorem IsTypeExpr.isInline {text : String} (h : IsTypeExpr text) : IsInline text :=
  isInline_of_forall isTypeChar (List.all_eq_true.mp h.all_isTypeChar) rfl rfl rfl

/-! ## Literals -/

namespace Text

/-- The characters that numbers are written with. -/
def isLiteralChar (c : Char) : Bool :=
  isNamePart c || c == '+' || c == '-' || c == '.'

/-- Digits stand in numbers. -/
theorem isLiteralChar_of_isDigit {c : Char} (h : isDigit c = true) : isLiteralChar c = true := by
  simp [isLiteralChar, isNamePart, h]

/-- What is dropped of a text with a sign is the sign. -/
theorem isLiteralChar_of_dropSign {s : List Char}
    (h : ∀ c ∈ dropSign s, isLiteralChar c = true) : ∀ c ∈ s, isLiteralChar c = true := by
  unfold dropSign at h
  split at h
  · exact List.forall_mem_cons.mpr ⟨rfl, h⟩
  · exact List.forall_mem_cons.mpr ⟨rfl, h⟩
  · exact h

/-- The characters of an exponent. -/
theorem isLiteralChar_of_isExponent {s : List Char} (h : isExponent s = true) :
    ∀ c ∈ s, isLiteralChar c = true := by
  cases s with
  | nil => simp
  | cons e rest =>
    simp only [isExponent, Bool.and_eq_true, Bool.or_eq_true, beq_iff_eq, List.all_eq_true] at h
    obtain ⟨⟨hletter, -⟩, hdigits⟩ := h
    rw [List.forall_mem_cons]
    constructor
    · rcases hletter with rfl | rfl <;> rfl
    · apply isLiteralChar_of_dropSign
      intro c hc
      exact isLiteralChar_of_isDigit (hdigits c hc)

/-- A text is made of such characters when what follows its leading digits is. -/
theorem isLiteralChar_of_dropWhile {s : List Char}
    (h : ∀ c ∈ s.dropWhile isDigit, isLiteralChar c = true) :
    ∀ c ∈ s, isLiteralChar c = true := by
  intro c hc
  rw [← List.takeWhile_append_dropWhile (p := isDigit) (l := s), List.mem_append] at hc
  rcases hc with hc | hc
  · exact isLiteralChar_of_isDigit (List.mem_takeWhile_imp hc)
  · exact h c hc

/-- The characters of a decimal number. -/
theorem isLiteralChar_of_isDecimal {s : List Char} (h : isDecimal s = true) :
    ∀ c ∈ s, isLiteralChar c = true := by
  apply isLiteralChar_of_dropWhile
  unfold isDecimal at h
  dsimp only at h
  split at h
  · rename_i rest hrest
    rw [Bool.and_eq_true] at h
    rw [hrest, List.forall_mem_cons]
    exact ⟨rfl, isLiteralChar_of_dropWhile (isLiteralChar_of_isExponent h.2)⟩
  · rw [Bool.and_eq_true] at h
    exact isLiteralChar_of_isExponent h.2

/-- Only letters have a lower case. -/
theorem isNamePart_of_asciiLower {c : Char} (h : isNamePart (asciiLower c) = true) :
    isNamePart c = true := by
  unfold asciiLower at h
  split at h
  · rename_i hupper
    simp [isNamePart, isLetter, hupper]
  · exact h

/-- The characters of a floating point literal. -/
theorem isLiteralChar_of_isFloating {s : List Char} (h : isFloating s = true) :
    ∀ c ∈ s, isLiteralChar c = true := by
  apply isLiteralChar_of_dropSign
  have hnamed : ∀ name : List Char, name.all isNamePart = true →
      (dropSign s).map asciiLower = name → ∀ c ∈ dropSign s, isLiteralChar c = true := by
    intro name hname hsame c hc
    have hlower := List.all_eq_true.mp hname (asciiLower c) (hsame ▸ List.mem_map_of_mem hc)
    simp [isLiteralChar, isNamePart_of_asciiLower hlower]
  simp only [isFloating, Bool.or_eq_true, beq_iff_eq] at h
  rcases h with ((hname | hname) | hname) | hdecimal
  · exact hnamed _ (by decide) hname
  · exact hnamed _ (by decide) hname
  · exact hnamed _ (by decide) hname
  · exact isLiteralChar_of_isDecimal hdecimal

/-- The characters of an integer literal. -/
theorem isLiteralChar_of_signed? {half : Nat} {s : List Char} {value : Int}
    (h : signed? half s = some value) : ∀ c ∈ s, isLiteralChar c = true := by
  obtain ⟨digits, hdigits, hs⟩ := exists_digits_of_signed? h
  have hliteral : ∀ c ∈ digits, isLiteralChar c = true :=
    fun c hc => isLiteralChar_of_isDigit (hdigits.2 c hc)
  rcases hs with ⟨rfl, -⟩ | ⟨rfl | rfl, -⟩
  · exact List.forall_mem_cons.mpr ⟨rfl, hliteral⟩
  · exact List.forall_mem_cons.mpr ⟨rfl, hliteral⟩
  · exact hliteral

end Text

/-- The literal of a constant that has a spelling is inline, and so is the spelling. -/
theorem isInline_of_spelling {constant : Constant} {spelling : String}
    (h : constant.spelling = .ok spelling) : IsInline constant.literal ∧ IsInline spelling := by
  have hinline : (∀ c ∈ constant.literal.toList, Text.isLiteralChar c = true) →
      IsInline constant.literal := fun hchars =>
    isInline_of_forall Text.isLiteralChar hchars rfl rfl rfl
  unfold Constant.spelling at h
  split at h
  · split at h
    · rename_i hfloating
      obtain rfl := Except.ok.inj h
      have hliteral := hinline (Text.isLiteralChar_of_isFloating hfloating)
      exact ⟨hliteral, hliteral⟩
    · exact absurd h (by simp)
  · split at h
    · exact absurd h (by simp)
    · rename_i value hvalue
      obtain rfl := Except.ok.inj h
      have hliteral := hinline (Text.isLiteralChar_of_signed? hvalue)
      refine ⟨hliteral, ?_⟩
      split
      · exact isInline_append.mpr ⟨hliteral, by decide⟩
      · exact hliteral

/-! ## Contexts -/

/-- The texts of a name context are inline. -/
structure NameContext.Inline (names : NameContext) : Prop where
  fullName : IsInline names.fullName
  shortName : IsInline names.shortName
  typeName : IsInline names.typeName
  qualifiedName : IsInline names.qualifiedName
  guard : IsInline names.guard
  spaces : ∀ space ∈ names.spaces, IsInline space
  includes : ∀ path ∈ names.includes, IsInline path

/-- The texts of a field are inline. -/
structure FieldContext.Inline (field : FieldContext) : Prop where
  name : IsInline field.name
  typeExpr : IsInline field.typeExpr

/-- The texts of a constant are inline. -/
structure ConstantContext.Inline (constant : ConstantContext) : Prop where
  name : IsInline constant.name
  typeExpr : IsInline constant.typeExpr
  spelling : IsInline constant.spelling
  literal : IsInline constant.literal

/-- The texts of a body are inline. -/
structure BodyContext.Inline (body : BodyContext) : Prop where
  fields : ∀ field ∈ body.fields, field.Inline
  constants : ∀ constant ∈ body.constants, constant.Inline

/-- The token for the kind of a definition is inline. -/
theorem NameContext.isInline_kindToken (names : NameContext) : IsInline names.kindToken := by
  unfold NameContext.kindToken
  split <;> decide

/-- The names of the members of an inline body are inline. -/
theorem BodyContext.Inline.members {body : BodyContext} (h : body.Inline) :
    ∀ member ∈ body.members, IsInline member.name := by
  intro member hmember
  obtain ⟨field, hfield, rfl⟩ := List.mem_map.mp hmember
  exact (h.fields field hfield).name

/-- What holds of everything that is related to an item of a list holds of all items of a list that
is related to it item by item. -/
theorem forall_of_forall₂ {α β : Type} {R : α → β → Prop} {Q : β → Prop} {xs : List α}
    {ys : List β} (h : List.Forall₂ R xs ys) (himp : ∀ x ∈ xs, ∀ y, R x y → Q y) :
    ∀ y ∈ ys, Q y := by
  have hiff := forall_iff_of_forall₂ (P := fun _ => True) h
    fun x hx y hxy => iff_of_true (himp x hx y hxy) trivial
  exact hiff.mpr fun _ _ => trivial

/-- The context of a constant is inline when the name of the constant is. -/
theorem Constant.inline_of_context {constant : Constant} {entry : ConstantContext}
    (h : constant.context = .ok entry) (hname : IsInline constant.name) : entry.Inline := by
  unfold Constant.context at h
  split at h
  · exact absurd h (by simp)
  · rename_i spelling hspelling
    obtain rfl := Except.ok.inj h
    obtain ⟨hliteral, hspelled⟩ := isInline_of_spelling hspelling
    exact ⟨hname, (IsTypeExpr.scalar constant.type).isInline, hspelled, hliteral⟩

/-- The context of a valid body is inline when its types are proper and the names of its constants
are identifiers. -/
theorem Body.inline_of_context {type : String} {body : Body} {found : BodyContext}
    (hvalid : body.Valid) (h : body.context type = .ok found)
    (htypes : ∀ field ∈ found.fields, IsTypeExpr field.typeExpr)
    (hconstants : ∀ constant ∈ body.constants, isIdentifier constant.name = true) :
    found.Inline := by
  have hnames := (Body.isIdentifier_iff hvalid h).mpr hconstants
  constructor
  · intro field hfield
    have hname : field.name ∈ found.identifiers := by
      apply List.mem_append_left
      rw [BodyContext.members, List.map_map]
      exact List.mem_map_of_mem hfield
    exact ⟨isInline_of_isIdentifier (hnames _ hname), (htypes field hfield).isInline⟩
  · obtain ⟨fields, -, hrest⟩ := bind_eq_ok_iff.mp h
    obtain ⟨constants, hfound, hbody⟩ := bind_eq_ok_iff.mp hrest
    obtain rfl := Except.ok.inj hbody
    refine forall_of_forall₂ (Q := ConstantContext.Inline) (forall₂_of_mapM hfound) ?_
    intro constant hconstant entry hentry
    exact Constant.inline_of_context hentry
      (isInline_of_isIdentifier (hconstants constant hconstant))

/-- The names of a valid definition are inline when those that it refers to are proper. -/
theorem Definition.inline_nameContext {definition : Definition} {extension : String}
    (hname : isFullName definition.fullName = true)
    (hincludes : ∀ path ∈ definition.includes extension, IsHeaderPath extension path)
    (hextension : IsInline extension) : (definition.nameContext extension).Inline := by
  have hown : ∀ name ∈ (definition.nameContext extension).identifiers, IsInline name :=
    fun name hmem =>
      isInline_of_isIdentifier (definition.isIdentifier_of_mem_identifiers hname hmem)
  exact {
    fullName := (identifiersJoined_of_isFullName hname).isInline (by decide)
    shortName := hown _ (by simp [NameContext.identifiers])
    typeName := hown _ (by simp [NameContext.identifiers])
    qualifiedName := (isQualified_of_isFullName hname).isInline
    guard := hown _ (by simp [NameContext.identifiers])
    spaces := fun space hspace => hown _ (List.mem_append_left _ hspace)
    includes := fun path hpath => (hincludes path hpath).isInline hextension }

/-- The texts in the context of a valid definition are inline when the names that it refers to are
proper and the names of its constants are identifiers. -/
theorem Definition.inline_of_context {definition : Definition} {extension : String}
    {context : Context} (hvalid : definition.Valid)
    (h : definition.context extension = .ok context)
    (hreferenced : ∀ target ∈ definition.referenced, isFullName target.fullName = true)
    (hconstants : ∀ body ∈ definition.bodies, ∀ constant ∈ body.constants,
      isIdentifier constant.name = true) (hextension : IsInline extension) :
    context.names.Inline ∧ ∀ body ∈ context.bodies.list, body.Inline := by
  obtain ⟨hincludes, htypes⟩ := (Definition.references_iff h).mpr hreferenced
  constructor
  · rw [Definition.names_of_context h]
    exact definition.inline_nameContext hvalid.name hincludes hextension
  · intro found hfound
    refine forall_of_forall₂ (Q := fun found => (∀ field ∈ found.fields,
      IsTypeExpr field.typeExpr) → found.Inline) (Definition.bodies_of_context h) ?_ found hfound
      (htypes found hfound)
    intro body hbody other hother hexprs
    exact Body.inline_of_context (hvalid.bodies body hbody) hother hexprs (hconstants body hbody)

end DsdlHeaders
