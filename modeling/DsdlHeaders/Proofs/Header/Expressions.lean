import DsdlHeaders.Proofs.Header.Names
import DsdlHeaders.Proofs.Text.Marks

/-!
# Types behind type expressions

A type expression can be taken apart again, whatever the arrays and whatever proper names the types
have: a name may look like the name of a template, but only templates are followed by a bracket.

* **What is said** (`Atom`): an expression is the text of an atom inside the texts of the arrays
  around it (`typeExprWithin_eq`). An atom is an integer or floating point specification or a name.
* **Atoms** are determined by their texts (`Atom.eq_of_text_eq`): the eleventh character tells the
  templates apart, and a number ends where its digits end.
* **Arrays** are taken off from the outside (`eq_of_expression_eq`). The mode and the size of an
  array stand behind its element, so they are read from the right.
* **Types with one atom** (`SameAtom`): types of one name, and what is spelled as an unsigned
  integer of one width and cast mode.

Main statement: `typeExpr_eq_iff`.
-/

namespace DsdlHeaders

/-! ## Types that headers do not tell apart -/

/-- The types that are spelled as unsigned integers of a width and a cast mode. -/
inductive SpelledUnsigned (bits : Nat) : CastMode → DataType → Prop
  | unsigned (cast : CastMode) : SpelledUnsigned bits cast (.primitive ⟨.unsigned, bits, cast⟩)
  | boolean (cast : CastMode) : SpelledUnsigned bits cast (.primitive ⟨.boolean, bits, cast⟩)
  | void : SpelledUnsigned bits .saturated (.void bits)

/-- Types other than arrays that headers do not tell apart: equal ones, compound types of one name,
and those that are spelled as the same unsigned integer. -/
inductive SameAtom : DataType → DataType → Prop
  | refl (type : DataType) : SameAtom type type
  | compound {target other : Definition} (named : target.fullName = other.fullName) :
      SameAtom (.compound target) (.compound other)
  | unsigned {bits : Nat} {cast : CastMode} {type other : DataType}
      (spelled : SpelledUnsigned bits cast type) (spelled' : SpelledUnsigned bits cast other) :
      SameAtom type other

/-! ## Atoms -/

/-- What a type expression says of the type inside all arrays. -/
inductive Atom where
  | integer (bits : Nat) (isSigned : Bool) (cast : CastMode)
  | floating (bits : Nat) (cast : CastMode)
  | named (fullName : String)

namespace Atom

/-- The token of a signedness. -/
def signedness : Bool → String
  | true => "::uavcan::SignednessSigned"
  | false => "::uavcan::SignednessUnsigned"

/-- The text of an atom. -/
def text : Atom → String
  | .integer bits isSigned cast => integerSpec bits (signedness isSigned) cast.token
  | .floating bits cast => Primitive.typeExpr ⟨.floating, bits, cast⟩
  | .named fullName => qualifiedName fullName

/-- A name is proper if the atom is one. -/
def Proper : Atom → Prop
  | .named fullName => isFullName fullName = true
  | _ => True

end Atom

/-- The atom of a type. -/
def DataType.atom : DataType → Atom
  | .primitive ⟨.boolean, bits, cast⟩ => .integer bits false cast
  | .primitive ⟨.unsigned, bits, cast⟩ => .integer bits false cast
  | .primitive ⟨.signed, bits, cast⟩ => .integer bits true cast
  | .primitive ⟨.floating, bits, cast⟩ => .floating bits cast
  | .void bits => .integer bits false .saturated
  | .compound target => .named target.fullName
  | .array element _ => element.atom

/-- Arrays around the text of an element, the outermost first. -/
def expression (inner : String) : List Sizing → String
  | [] => inner
  | sizing :: sizings =>
    "::uavcan::Array< " ++ expression inner sizings ++ ", " ++ sizing.arguments ++ " >"

/-- The expression of a type is made of its atom and of its arrays. -/
theorem DataType.typeExprWithin_eq {levels : Nat} {type : DataType} {text : String}
    (h : type.typeExprWithin levels = some text) :
    text = expression type.atom.text type.sizings := by
  induction levels generalizing type text with
  | zero => exact absurd h (by simp [typeExprWithin])
  | succ levels ih =>
    cases type with
    | primitive scalar =>
      rw [← Option.some.inj h]
      obtain ⟨kind, bits, cast⟩ := scalar
      cases kind <;> rfl
    | void bits =>
      rw [← Option.some.inj h]
      rfl
    | compound target =>
      rw [← Option.some.inj h]
      rfl
    | array element sizing =>
      obtain ⟨inner, hinner, rfl⟩ := Option.map_eq_some_iff.mp h
      rw [ih hinner]
      rfl

/-- The types that are spelled as unsigned integers have such atoms. -/
theorem SpelledUnsigned.atom_eq {bits : Nat} {cast : CastMode} {type : DataType}
    (h : SpelledUnsigned bits cast type) : type.atom = .integer bits false cast := by
  cases h <;> rfl

/-- What an atom says of a type that is no array. -/
def Atom.SaidOf : Atom → DataType → Prop
  | .integer bits false cast, type => SpelledUnsigned bits cast type
  | .integer bits true cast, type => type = .primitive ⟨.signed, bits, cast⟩
  | .floating bits cast, type => type = .primitive ⟨.floating, bits, cast⟩
  | .named fullName, type => ∃ target, type = .compound target ∧ target.fullName = fullName

/-- The atom of a type is said of what is inside its arrays. -/
theorem DataType.saidOf_atom (type : DataType) : type.atom.SaidOf type.innermost := by
  fun_induction DataType.innermost type with
  | case1 element sizing ih => exact ih
  | case2 type harray =>
    cases type with
    | primitive scalar =>
      obtain ⟨kind, bits, cast⟩ := scalar
      cases kind with
      | boolean => exact .boolean cast
      | unsigned => exact .unsigned cast
      | signed => rfl
      | floating => rfl
    | void bits => exact .void
    | compound target => exact ⟨target, rfl, rfl⟩
    | array element sizing => exact absurd rfl (harray element sizing)

/-- The atom of a type is that of what is inside its arrays. -/
theorem DataType.atom_innermost (type : DataType) : type.innermost.atom = type.atom := by
  fun_induction DataType.innermost type with
  | case1 element sizing ih => exact ih
  | case2 type harray => rfl

/-- Headers do not tell types apart of which the same is said. -/
theorem Atom.SaidOf.sameAtom {atom : Atom} {first second : DataType} (h : atom.SaidOf first)
    (h' : atom.SaidOf second) : SameAtom first second := by
  rcases atom with ⟨bits, _ | _, cast⟩ | ⟨bits, cast⟩ | fullName
  · exact .unsigned h h'
  · obtain rfl : first = second := Eq.trans h (Eq.symm h')
    exact .refl first
  · obtain rfl : first = second := Eq.trans h (Eq.symm h')
    exact .refl first
  · obtain ⟨target, rfl, hname⟩ := h
    obtain ⟨other, rfl, hname'⟩ := h'
    exact .compound (hname.trans hname'.symm)

/-- Two types have one atom exactly when headers do not tell apart what is inside their arrays. -/
theorem DataType.atom_eq_iff {first second : DataType} :
    first.atom = second.atom ↔ SameAtom first.innermost second.innermost := by
  constructor
  · intro h
    have hsecond := second.saidOf_atom
    rw [← h] at hsecond
    exact first.saidOf_atom.sameAtom hsecond
  · intro h
    rw [← atom_innermost first, ← atom_innermost second]
    generalize first.innermost = inner, second.innermost = other at h
    cases h with
    | refl type => rfl
    | compound named => exact congrArg Atom.named named
    | unsigned spelled spelled' => rw [spelled.atom_eq, spelled'.atom_eq]

/-! ## Texts of templates

The parts of a text are grouped to the right, so that a known front can be taken off. -/

/-- Five parts, grouped to the right. -/
theorem append_five (a b c d e : String) : a ++ b ++ c ++ d ++ e = a ++ (b ++ (c ++ (d ++ e))) := by
  simp only [String.append_assoc]

/-- Seven parts, grouped to the right. -/
theorem append_seven (a b c d e f g : String) :
    a ++ b ++ c ++ d ++ e ++ f ++ g = a ++ (b ++ (c ++ (d ++ (e ++ (f ++ g))))) := by
  simp only [String.append_assoc]

/-- The text of an integer. -/
theorem Atom.text_integer (bits : Nat) (isSigned : Bool) (cast : CastMode) :
    (Atom.integer bits isSigned cast).text = "::uavcan::IntegerSpec< " ++ (toString bits ++ (", " ++
      (signedness isSigned ++ (", " ++ (cast.token ++ " >"))))) :=
  append_seven _ _ _ _ _ _ _

/-- The text of a floating point number. -/
theorem Atom.text_floating (bits : Nat) (cast : CastMode) :
    (Atom.floating bits cast).text = "::uavcan::FloatSpec< " ++ (toString bits ++ (", " ++
      (cast.token ++ " >"))) :=
  append_five _ _ _ _ _

/-- The mode of an array, up to the space before the size. -/
def Sizing.mode : Sizing → String
  | .static _ => "::uavcan::ArrayModeStatic,"
  | .dynamic _ => "::uavcan::ArrayModeDynamic,"

/-- There are two modes. -/
theorem Sizing.mode_cases (sizing : Sizing) :
    sizing.mode = "::uavcan::ArrayModeStatic," ∨ sizing.mode = "::uavcan::ArrayModeDynamic," := by
  cases sizing
  · exact .inl rfl
  · exact .inr rfl

/-- Mode and size stand with a space in between. -/
theorem Sizing.arguments_eq (sizing : Sizing) :
    sizing.arguments = sizing.mode ++ " " ++ toString sizing.capacity := by
  cases sizing <;> rfl

/-- Without arrays the text is that of the element. -/
theorem expression_nil (inner : String) : expression inner [] = inner :=
  rfl

/-- The parts of the text of an array, grouped around the space before the size. -/
theorem append_array (a b c d e f g : String) :
    a ++ b ++ c ++ (d ++ e ++ f) ++ g = a ++ (b ++ (c ++ d)) ++ e ++ f ++ g := by
  simp only [String.append_assoc]

/-- The text of an array around an element. -/
theorem expression_cons (inner : String) (sizing : Sizing) (sizings : List Sizing) :
    expression inner (sizing :: sizings) =
      "::uavcan::Array< " ++ (expression inner sizings ++ (", " ++ sizing.mode)) ++ " " ++
        toString sizing.capacity ++ " >" := by
  have hsplit : expression inner (sizing :: sizings) = "::uavcan::Array< " ++
      expression inner sizings ++ ", " ++ (sizing.mode ++ " " ++ toString sizing.capacity) ++
        " >" :=
    congrArg (fun arguments => "::uavcan::Array< " ++ expression inner sizings ++ ", " ++
      arguments ++ " >") sizing.arguments_eq
  exact hsplit.trans (append_array _ _ _ _ _ _ _)

/-! ## Numbers -/

/-- A number before a comma is read from the left. -/
theorem number_before_comma {first second : Nat} {rest others : String}
    (h : toString first ++ (", " ++ rest) = toString second ++ (", " ++ others)) :
    first = second ∧ rest = others := by
  have hcut : ∀ (n : Nat) (s : String), Text.cut? [','] (toString n ++ (", " ++ s)).toList =
      some ((toString n).toList, ' ' :: s.toList) := by
    intro n s
    rw [Text.cut?_singleton_iff, String.toList_append, String.toList_append]
    exact ⟨rfl, fun hmem => absurd (Text.isDigit_of_mem_toString hmem) (by decide)⟩
  have hparts := hcut first rest
  rw [h, hcut second others, Option.some.injEq, Prod.mk.injEq] at hparts
  exact ⟨Text.eq_of_toString_eq (String.ext hparts.1.symm),
    String.ext (List.cons.inj hparts.2).2.symm⟩

/-- A number after a space is read from the right. -/
theorem number_after_space {first second : Nat} {before others : String}
    (h : before ++ " " ++ toString first = others ++ " " ++ toString second) :
    before = others ∧ first = second := by
  have hcut : ∀ (s : String) (n : Nat), Text.cutLast? ' ' (s ++ " " ++ toString n).toList =
      some (s.toList, (toString n).toList) := by
    intro s n
    rw [String.toList_append, String.toList_append, List.append_assoc]
    exact Text.cutLast?_append_cons fun hmem =>
      absurd (Text.isDigit_of_mem_toString hmem) (by decide)
  have hparts := hcut before first
  rw [h, hcut others second, Option.some.injEq, Prod.mk.injEq] at hparts
  exact ⟨String.ext hparts.1.symm, Text.eq_of_toString_eq (String.ext hparts.2.symm)⟩

/-! ## Telling templates apart -/

/-- The eleventh character of a text with a bracket, which names have not. It is the first letter of
the template, after the name space that all templates share. -/
def templateLetter? (text : String) : Option Char :=
  if '<' ∈ text.toList then text.toList[10]? else none

/-- The letter of a text is that of its front if this has a bracket. -/
theorem templateLetter?_append {front : String} {letter : Char} (hbracket : '<' ∈ front.toList)
    (hletter : front.toList[10]? = some letter) (rest : String) :
    templateLetter? (front ++ rest) = some letter := by
  obtain ⟨hlt, -⟩ := List.getElem?_eq_some_iff.mp hletter
  rw [templateLetter?, String.toList_append, if_pos (List.mem_append_left _ hbracket),
    List.getElem?_append_left hlt, hletter]

/-- The letter of an array. -/
theorem templateLetter?_array (inner : String) (sizing : Sizing) (sizings : List Sizing) :
    templateLetter? (expression inner (sizing :: sizings)) = some 'A' := by
  have hfront : expression inner (sizing :: sizings) = "::uavcan::Array< " ++
      (expression inner sizings ++ (", " ++ (sizing.arguments ++ " >"))) := append_five _ _ _ _ _
  rw [hfront]
  exact templateLetter?_append (by decide) (by decide) _

/-- Proper names have no letter. -/
theorem templateLetter?_named {fullName : String} (h : isFullName fullName = true) :
    templateLetter? (qualifiedName fullName) = none := by
  refine if_neg fun hmem => ?_
  obtain ⟨joined, hjoined, htext⟩ := isQualified_of_isFullName h
  rw [htext, String.toList_append, List.mem_append] at hmem
  rcases hmem with hmark | hname
  · exact absurd hmark (by decide)
  · rcases hjoined.mem_cases hname with hmark | hpart
    · exact absurd hmark (by decide)
    · exact absurd hpart (by decide)

namespace Atom

/-- The letter of an atom. -/
def letter? : Atom → Option Char
  | .integer .. => some 'I'
  | .floating .. => some 'F'
  | .named _ => none

/-- The text of an atom shows its letter. -/
theorem templateLetter?_text {atom : Atom} (h : atom.Proper) :
    templateLetter? atom.text = atom.letter? := by
  cases atom with
  | integer bits isSigned cast =>
    rw [text_integer]
    exact templateLetter?_append (by decide) (by decide) _
  | floating bits cast =>
    rw [text_floating]
    exact templateLetter?_append (by decide) (by decide) _
  | named fullName => exact templateLetter?_named h

/-- An atom does not have the letter of arrays. -/
theorem letter?_ne (atom : Atom) : atom.letter? ≠ some 'A' := by
  cases atom <;> simp [letter?]

end Atom

/-! ## Taking texts apart -/

/-- A cast mode is determined by its token. -/
theorem CastMode.token_injective : Function.Injective CastMode.token := by
  intro cast cast' h
  cases cast <;> cases cast' <;> first | rfl | exact absurd h (by decide)

/-- A signedness is determined by its token. -/
theorem Atom.signedness_injective : Function.Injective Atom.signedness := by
  intro isSigned isSigned' h
  cases isSigned <;> cases isSigned' <;> first | rfl | exact absurd h (by decide)

/-- Two texts with equally long ends are the same only if the ends are. -/
theorem append_inj_of_length_eq {front other rest others : String}
    (h : front ++ rest = other ++ others) (hlong : rest.toList.length = others.toList.length) :
    front = other ∧ rest = others := by
  have hchars : front.toList ++ rest.toList = other.toList ++ others.toList := by
    rw [← String.toList_append, ← String.toList_append, h]
  obtain ⟨hfront, hrest⟩ := List.append_inj' hchars hlong
  exact ⟨String.ext hfront, String.ext hrest⟩

/-- Signedness and cast mode of an integer are determined by their tokens. -/
theorem flags_eq {isSigned isSigned' : Bool} {cast cast' : CastMode}
    (h : Atom.signedness isSigned ++ (", " ++ (cast.token ++ " >")) =
      Atom.signedness isSigned' ++ (", " ++ (cast'.token ++ " >"))) :
    isSigned = isSigned' ∧ cast = cast' := by
  -- the tokens of cast modes are equally long
  have hlong : (", " ++ (cast.token ++ " >")).toList.length =
      (", " ++ (cast'.token ++ " >")).toList.length := by cases cast <;> cases cast' <;> decide
  obtain ⟨hsigned, hrest⟩ := append_inj_of_length_eq h hlong
  have htoken := (String.append_left_inj _).mp ((String.append_right_inj _).mp hrest)
  exact ⟨Atom.signedness_injective hsigned, CastMode.token_injective htoken⟩

/-- A proper name is determined by its qualified form. -/
theorem eq_of_qualifiedName_eq {name other : String} (hname : isFullName name = true)
    (hother : isFullName other = true) (h : qualifiedName name = qualifiedName other) :
    name = other := by
  have hfree : ∀ {name : String}, isFullName name = true → ':' ∉ name.toList := by
    intro name hname hmem
    obtain ⟨part, hpart, hin⟩ := @Text.exists_part_of_mem '.' _ _ (by decide) hmem
    exact Text.not_mem_of_isIdentifier (List.all_eq_true.mp hname part hpart) (by decide) hin
  have hchars := List.append_cancel_left (String.ofList_injective h)
  exact String.ext (Text.eq_of_replaceChar_eq (hfree hname) (hfree hother) hchars)

/-- Atoms with proper names are determined by their texts. -/
theorem Atom.eq_of_text_eq {first second : Atom} (hfirst : first.Proper) (hsecond : second.Proper)
    (h : first.text = second.text) : first = second := by
  have hletter : first.letter? = second.letter? := by
    rw [← templateLetter?_text hfirst, h, templateLetter?_text hsecond]
  cases first with
  | integer bits isSigned cast =>
    cases second with
    | integer bits' isSigned' cast' =>
      rw [text_integer, text_integer] at h
      obtain ⟨rfl, hflags⟩ := number_before_comma ((String.append_right_inj _).mp h)
      obtain ⟨rfl, rfl⟩ := flags_eq hflags
      rfl
    | floating bits' cast' => exact absurd hletter (by simp [letter?])
    | named other => exact absurd hletter (by simp [letter?])
  | floating bits cast =>
    cases second with
    | integer bits' isSigned' cast' => exact absurd hletter (by simp [letter?])
    | floating bits' cast' =>
      rw [text_floating, text_floating] at h
      obtain ⟨rfl, hcast⟩ := number_before_comma ((String.append_right_inj _).mp h)
      rw [CastMode.token_injective ((String.append_left_inj _).mp hcast)]
    | named other => exact absurd hletter (by simp [letter?])
  | named name =>
    cases second with
    | integer bits' isSigned' cast' => exact absurd hletter (by simp [letter?])
    | floating bits' cast' => exact absurd hletter (by simp [letter?])
    | named other => rw [eq_of_qualifiedName_eq hfirst hsecond h]

/-- An element and the mode of the array around it are determined by the text of both. -/
theorem element_and_mode_eq {element other : String} {sizing sizing' : Sizing}
    (h : element ++ (", " ++ sizing.mode) = other ++ (", " ++ sizing'.mode)) :
    element = other ∧ sizing.mode = sizing'.mode := by
  -- the modes end in the same three characters, but not in the same four
  have hfourth : ∀ (text : String) (sizing : Sizing),
      (text ++ (", " ++ sizing.mode)).toList.reverse[3]? = sizing.mode.toList.reverse[3]? := by
    intro text sizing
    have hlong : 3 < sizing.mode.toList.reverse.length := by
      rcases sizing.mode_cases with hmode | hmode <;> rw [hmode] <;> decide
    rw [String.toList_append, String.toList_append, List.reverse_append, List.reverse_append,
      List.append_assoc, List.getElem?_append_left hlong]
  have hletter : sizing.mode.toList.reverse[3]? = sizing'.mode.toList.reverse[3]? := by
    rw [← hfourth element, h, hfourth]
  have hmode : sizing.mode = sizing'.mode := by
    rcases sizing.mode_cases with hm | hm <;> rcases sizing'.mode_cases with hm' | hm' <;>
      rw [hm, hm'] at hletter ⊢ <;> exact absurd hletter (by decide)
  rw [hmode] at h
  exact ⟨(String.append_left_inj _).mp h, hmode⟩

/-- A sizing is determined by its mode and its capacity. -/
theorem Sizing.eq_of_mode_eq {sizing other : Sizing} (hmode : sizing.mode = other.mode)
    (hcapacity : sizing.capacity = other.capacity) : sizing = other := by
  cases sizing <;> cases other <;>
    first | exact congrArg _ hcapacity | exact absurd hmode (by simp [mode])

/-- Arrays and atoms with proper names are determined by the texts of arrays around atoms. -/
theorem eq_of_expression_eq {first second : Atom} (hfirst : first.Proper) (hsecond : second.Proper)
    {sizings others : List Sizing}
    (h : expression first.text sizings = expression second.text others) :
    sizings = others ∧ first = second := by
  induction sizings generalizing others with
  | nil =>
    cases others with
    | nil =>
      have htext := (expression_nil first.text).symm.trans (h.trans (expression_nil second.text))
      exact ⟨rfl, Atom.eq_of_text_eq hfirst hsecond htext⟩
    | cons other others =>
      have hletter := templateLetter?_array second.text other others
      rw [← h, expression_nil, Atom.templateLetter?_text hfirst] at hletter
      exact absurd hletter first.letter?_ne
  | cons sizing sizings ih =>
    cases others with
    | nil =>
      have hletter := templateLetter?_array first.text sizing sizings
      rw [h, expression_nil, Atom.templateLetter?_text hsecond] at hletter
      exact absurd hletter second.letter?_ne
    | cons other others =>
      rw [expression_cons, expression_cons] at h
      obtain ⟨hfront, hcapacity⟩ := number_after_space ((String.append_left_inj _).mp h)
      obtain ⟨hinner, hmode⟩ := element_and_mode_eq ((String.append_right_inj _).mp hfront)
      obtain ⟨rfl, rfl⟩ := ih hinner
      rw [Sizing.eq_of_mode_eq hmode hcapacity]
      exact ⟨rfl, rfl⟩

/-! ## Types -/

/-- The atom of a type is proper when the name inside its arrays is. -/
theorem DataType.proper_atom {type : DataType}
    (h : ∀ target, type.innermost = .compound target → isFullName target.fullName = true) :
    type.atom.Proper := by
  have hsaid := type.saidOf_atom
  generalize type.atom = atom at hsaid ⊢
  rcases atom with _ | _ | fullName
  · trivial
  · trivial
  · obtain ⟨target, htarget, rfl⟩ := hsaid
    exact h target htarget

/-- **A type expression determines its type.** Let two types have type expressions, and let the
names inside their arrays be proper. Then the expressions are the same exactly when the types have
the same arrays, from the outermost to the innermost with the same modes and sizes, around types
that are equal, that are compound types of one name, or that are spelled as unsigned integers of one
width and cast mode. -/
theorem typeExpr_eq_iff {first second : DataType} {text other : String}
    (hfirst : ∀ target, first.innermost = .compound target → isFullName target.fullName = true)
    (hsecond : ∀ target, second.innermost = .compound target → isFullName target.fullName = true)
    (h : first.typeExpr? = some text) (h' : second.typeExpr? = some other) :
    text = other ↔
      first.sizings = second.sizings ∧ SameAtom first.innermost second.innermost := by
  rw [DataType.typeExprWithin_eq h, DataType.typeExprWithin_eq h', ← DataType.atom_eq_iff]
  constructor
  · exact eq_of_expression_eq (DataType.proper_atom hfirst) (DataType.proper_atom hsecond)
  · rintro ⟨hsizings, hatom⟩
    rw [hsizings, hatom]

/-- Up to three values of a type. -/
def upToThree (type : DataType) : DataType :=
  .array type (.dynamic 3)

/-- Types named like templates are told apart, padding and booleans of one width are not. -/
theorem typeExpr_eq_iff_of_upToThree :
    (∃ text other, (upToThree (.compound (.reference "uavcan.Array"))).typeExpr? = some text ∧
      (upToThree (.compound (.reference "uavcan.IntegerSpec"))).typeExpr? = some other ∧
      text ≠ other) ∧
    ∃ text other, (upToThree (.void 8)).typeExpr? = some text ∧
      (upToThree (.primitive ⟨.boolean, 8, .saturated⟩)).typeExpr? = some other ∧
      text = other := by
  constructor
  · have hproper : ∀ fullName, isFullName fullName = true → ∀ target,
        (upToThree (.compound (.reference fullName))).innermost = .compound target →
          isFullName target.fullName = true := by
      rintro fullName h _ ⟨⟩
      exact h
    refine ⟨_, _, rfl, rfl, fun h => ?_⟩
    obtain ⟨-, hsame⟩ := (typeExpr_eq_iff (hproper "uavcan.Array" (by decide))
      (hproper "uavcan.IntegerSpec" (by decide)) rfl rfl).mp h
    exact absurd (Atom.named.inj (DataType.atom_eq_iff.mpr hsame)) (by decide)
  · have hvoid : ∀ target, (upToThree (.void 8)).innermost = .compound target →
        isFullName target.fullName = true := by
      rintro _ ⟨⟩
    have hboolean : ∀ target, (upToThree (.primitive ⟨.boolean, 8, .saturated⟩)).innermost =
        .compound target → isFullName target.fullName = true := by
      rintro _ ⟨⟩
    exact ⟨_, _, rfl, rfl, (typeExpr_eq_iff hvoid hboolean rfl rfl).mpr
      ⟨rfl, .unsigned .void (.boolean .saturated)⟩⟩

end DsdlHeaders
