import Mathlib.Data.List.Perm.Basic
import DsdlHeaders.Document.Attributes
import DsdlHeaders.Proofs.Document.Format

/-!
# Written attributes are read back

What the attributes of an element say, when they were written for a value of the model.

* **Values**: numbers in range, cast modes and truth values are read back (`width?_toString`,
  `portId?_toString`, `count?_toString`, `parse?_castText`, `truth?_truthText`).
* **Attributes**: the attributes of a definition, of a section and of a type are read back in
  whatever order they stand (`heading_of_perm`, `sectionUnion_of_perm`, `scalar_of_perm`,
  `arraySizing_of_perm`, `get?_of_perm`). The readers that fold over the attributes do not depend on
  their order, because attributes with different keys set different parts of the result
  (`foldlM_eq_of_perm`).
-/

namespace DsdlHeaders

/-! ## Decimal numbers -/

namespace Text

/-- A number is written with digits. -/
theorem isDigit_of_mem_toString {n : Nat} {c : Char} (h : c ∈ (toString n).toList) :
    isDigit c = true := by
  have hdigit : c.isDigit = true :=
    Nat.isDigit_of_mem_toDigits (by decide) (by decide) (Nat.toList_repr ▸ h)
  simpa [isDigit, Char.isDigit, Char.le_def] using hdigit

/-- A written number is read back. -/
theorem natural?_toString (n : Nat) : natural? (toString n).toList = some n := by
  have hdigits : (toString n).toList = Nat.toDigits 10 n := Nat.toList_repr
  have hne : (toString n).toList.isEmpty = false := by
    rw [hdigits, List.isEmpty_eq_false_iff]
    exact Nat.toDigits_ne_nil
  have hall : (toString n).toList.all isDigit = true := by
    rw [List.all_eq_true]
    exact fun c hc => isDigit_of_mem_toString hc
  have hvalue : digitsValue (toString n).toList = n := by
    rw [hdigits]
    exact Nat.ofDigitChars_ten_toDigits
  rw [natural?, hne, hall, hvalue]
  rfl

/-- A number is determined by its digits. -/
theorem eq_of_toString_eq {n m : Nat} (h : toString n = toString m) : n = m := by
  have hread := natural?_toString n
  rw [h, natural?_toString] at hread
  exact (Option.some.inj hread).symm

/-- A written number below the bound is read back. -/
theorem unsigned?_toString {bound n : Nat} (h : n < bound) :
    unsigned? bound (toString n).toList = some n := by
  have hplus : '+' ∉ (toString n).toList := by
    intro hmem
    exact absurd (isDigit_of_mem_toString hmem) (by decide)
  unfold unsigned?
  split
  · rename_i heq
    exact absurd (heq ▸ List.mem_cons_self) hplus
  · dsimp only
    rw [natural?_toString, Option.bind_some, if_pos h]

end Text

/-- Numbers can stand between quotes. -/
theorem isQuotable_toString (n : Nat) : IsQuotable (toString n) := by
  intro hmem
  exact absurd (Text.isDigit_of_mem_toString hmem) (by decide)

namespace Document

open Markup

/-! ## Values -/

/-- Cast modes can stand between quotes. -/
theorem isQuotable_castText (cast : CastMode) : IsQuotable (castText cast) := by
  cases cast <;> decide

/-- Truth values can stand between quotes. -/
theorem isQuotable_truthText (value : Bool) : IsQuotable (truthText value) := by
  cases value <;> decide

/-- A width is read back. -/
theorem width?_toString {bits : Nat} (h : 1 ≤ bits ∧ bits ≤ 64) :
    width? (toString bits) = some bits := by
  have hbound : bits < 256 := by omega
  rw [width?, Text.unsigned?_toString hbound, Option.bind_some, if_pos (by simpa using h)]

/-- A port identifier is read back. -/
theorem portId?_toString {portId : Nat} (h : portId < Text.wordSize 32) :
    portId? (toString portId) = some portId :=
  Text.unsigned?_toString h

/-- The number of elements of an array is read back. -/
theorem count?_toString {count : Nat} (h : count < Text.wordSize 64) :
    count? (toString count) = some count :=
  Text.unsigned?_toString h

/-- A cast mode is read back. -/
theorem parse?_castText (cast : CastMode) : CastMode.parse? (castText cast) = some cast := by
  cases cast <;> decide +kernel

/-- A truth value is read back. -/
theorem truth?_truthText (value : Bool) : truth? (truthText value) = some value := by
  cases value <;> rfl

/-! ## Attributes in any order -/

/-- Steps that succeed and do not depend on each other can be made in any order. -/
theorem foldlM_eq_of_perm {σ α ε : Type} {step : σ → α → Except ε σ} {first second : List α}
    (h : first.Perm second) (moves : List (σ → σ))
    (hstep : ∀ a ∈ first, ∃ move ∈ moves, ∀ s, step s a = .ok (move s))
    (hswap : ∀ f ∈ moves, ∀ g ∈ moves, ∀ s, f (g s) = g (f s)) (s : σ) :
    first.foldlM step s = second.foldlM step s := by
  induction h generalizing s with
  | nil => rfl
  | cons a _ ih =>
    rw [List.foldlM_cons, List.foldlM_cons]
    congr 1
    funext t
    exact ih (fun b hb => hstep b (by simp [hb])) t
  | swap a b items =>
    obtain ⟨f, hf, ha⟩ := hstep a (by simp)
    obtain ⟨g, hg, hb⟩ := hstep b (by simp)
    have hboth : (step s b >>= fun t => step t a) = (step s a >>= fun t => step t b) := by
      rw [ha, hb]
      show step (g s) a = step (f s) b
      rw [ha, hb, hswap f hf g hg]
    simp only [List.foldlM_cons, ← bind_assoc, hboth]
  | trans hfirst _ ih₁ ih₂ =>
    rw [ih₁ hstep, ih₂ fun a ha => hstep a (hfirst.mem_iff.mpr ha)]

/-- An attribute with a key of its own is found. -/
theorem get?_of_perm {name key value : String} {attributes written : List Attribute}
    (hwritten : written.Perm attributes) (hdistinct : (attributes.map Attribute.key).Nodup)
    (hmem : ⟨key, value⟩ ∈ attributes) : Tag.get? ⟨name, written⟩ key = some value := by
  have hfound : written.find? (·.key = key) = some ⟨key, value⟩ := by
    rw [← (hwritten.map Attribute.key).nodup_iff] at hdistinct
    rw [← hwritten.mem_iff] at hmem
    clear hwritten
    induction written with
    | nil => exact absurd hmem List.not_mem_nil
    | cons item written ih =>
      rw [List.map_cons, List.nodup_cons] at hdistinct
      rcases List.mem_cons.mp hmem with rfl | hmem
      · exact List.find?_cons_of_pos (by simp)
      · have hkey : item.key ≠ key := fun h =>
          hdistinct.1 (h ▸ List.mem_map.mpr ⟨_, hmem, rfl⟩)
        rw [List.find?_cons_of_neg (by simpa using hkey)]
        exact ih hdistinct.2 hmem
  simp [Tag.get?, hfound]

/-- A value that can be read is read. -/
theorem readAs_eq_ok {α : Type} {read? : String → Option α} {value : String} {found : α}
    (h : read? value = some found) (element key : String) :
    readAs read? element ⟨key, value⟩ = .ok found := by
  unfold readAs
  rw [h]

/-! ## Definitions and sections -/

/-- The name of a definition is taken over. -/
theorem Heading.add_name (element : String) (heading : Heading) (fullName : String) :
    heading.add element ⟨"name", fullName⟩ = .ok { heading with fullName := some fullName } :=
  rfl

/-- The port identifier of a definition is taken over. -/
theorem Heading.add_portId (element : String) (heading : Heading) {portId : Nat}
    (h : portId < Text.wordSize 32) :
    heading.add element ⟨"fixedPortId", toString portId⟩ =
      .ok { heading with portId := some portId } := by
  rw [add, if_neg (by simp), if_pos rfl, readAs_eq_ok (portId?_toString h)]
  rfl

/-- The union flag of a definition is taken over. -/
theorem Heading.add_union (element : String) (heading : Heading) (isUnion : Bool) :
    heading.add element ⟨"union", truthText isUnion⟩ = .ok { heading with isUnion } := by
  rw [add, if_neg (by simp), if_neg (by simp), if_pos rfl, readAs_eq_ok (truth?_truthText isUnion)]
  rfl

/-- The heading of a definition is read back. -/
theorem heading_of_perm {element name fullName : String} {portId : Option Nat} {isUnion : Bool}
    {union written : List Attribute} (hportId : ∀ id ∈ portId, id < Text.wordSize 32)
    (hunion : OptionalAttribute ⟨"union", truthText isUnion⟩ (isUnion = false) union)
    (hwritten : written.Perm (headingAttributes fullName portId ++ union)) :
    heading element ⟨name, written⟩ = .ok (fullName, portId, isUnion) := by
  let moves : List (Heading → Heading) :=
    [fun found => { found with fullName := some fullName },
      fun found => { found with portId := portId }, fun found => { found with isUnion := isUnion }]
  have hmoves : ∀ f ∈ moves, ∀ g ∈ moves, ∀ found, f (g found) = g (f found) := by
    simp [moves]
  have hstep : ∀ item ∈ headingAttributes fullName portId ++ union, ∃ move ∈ moves,
      ∀ found : Heading, found.add element item = .ok (move found) := by
    intro item hitem
    rcases List.mem_append.mp hitem with hitem | hitem
    · rcases List.mem_cons.mp hitem with rfl | hitem
      · exact ⟨_, List.mem_cons_self, fun found => Heading.add_name element found fullName⟩
      · cases portId with
        | none => exact absurd hitem List.not_mem_nil
        | some id =>
          rw [List.mem_singleton.mp hitem]
          exact ⟨fun found => { found with portId := some id }, by simp [moves],
            fun found => Heading.add_portId element found (hportId id rfl)⟩
    · cases hunion with
      | given =>
        rw [List.mem_singleton.mp hitem]
        exact ⟨fun found => { found with isUnion := isUnion }, by simp [moves],
          fun found => Heading.add_union element found isUnion⟩
      | omitted => exact absurd hitem List.not_mem_nil
  have hfold : written.foldlM (Heading.add element) ⟨none, none, false⟩ =
      .ok ⟨some fullName, portId, isUnion⟩ := by
    rw [foldlM_eq_of_perm hwritten moves (fun item hitem => hstep item (hwritten.mem_iff.mp hitem))
      hmoves]
    rw [List.foldlM_append, headingAttributes.eq_def, List.foldlM_cons, Heading.add_name]
    have hflag : ∀ found : Heading, found.isUnion = false →
        union.foldlM (Heading.add element) found = .ok { found with isUnion := isUnion } := by
      intro found hfound
      cases hunion with
      | given =>
        rw [List.foldlM_cons, Heading.add_union]
        rfl
      | omitted h =>
        rw [List.foldlM_nil, h, ← hfound]
        rfl
    cases portId with
    | none => exact hflag _ rfl
    | some id =>
      show (Heading.add element ⟨some fullName, none, false⟩ _ >>= _) >>= _ = _
      rw [Heading.add_portId element _ (hportId id rfl)]
      exact hflag _ rfl
  rw [heading, hfold]
  rfl

/-- The union flag of a section is read back. -/
theorem sectionUnion_of_perm {name : String} {isUnion : Bool} {union written : List Attribute}
    (hunion : OptionalAttribute ⟨"union", truthText isUnion⟩ (isUnion = false) union)
    (hwritten : written.Perm union) : sectionUnion ⟨name, written⟩ = .ok isUnion := by
  cases hunion with
  | given =>
    rw [List.perm_singleton.mp hwritten]
    exact readAs_eq_ok (truth?_truthText isUnion) name "union"
  | omitted h =>
    rw [hwritten.eq_nil, h]
    rfl

/-! ## Types -/

/-- The width of a primitive type is taken over. -/
theorem ScalarShape.add_bits (element : String) (shape : ScalarShape) {bits : Nat}
    (h : 1 ≤ bits ∧ bits ≤ 64) :
    shape.add element ⟨"bits", toString bits⟩ = .ok { shape with bits := some bits } := by
  rw [add, if_pos rfl, readAs_eq_ok (width?_toString h)]
  rfl

/-- The cast mode of a primitive type is taken over. -/
theorem ScalarShape.add_cast (element : String) (shape : ScalarShape) (cast : CastMode) :
    shape.add element ⟨"cast", castText cast⟩ = .ok { shape with cast } := by
  rw [add, if_neg (by simp), if_pos rfl, readAs_eq_ok (parse?_castText cast)]
  rfl

/-- A primitive type is read back. -/
theorem scalar_of_perm {name : String} {type : Primitive} {cast written : List Attribute}
    (htype : type.Writable)
    (hcast : OptionalAttribute ⟨"cast", castText type.cast⟩ (type.cast = .saturated) cast)
    (hwritten : written.Perm (⟨"bits", toString type.bits⟩ :: cast)) :
    scalar type.kind ⟨name, written⟩ = .ok type := by
  let moves : List (ScalarShape → ScalarShape) :=
    [fun shape => { shape with bits := some type.bits },
      fun shape => { shape with cast := type.cast }]
  have hmoves : ∀ f ∈ moves, ∀ g ∈ moves, ∀ shape, f (g shape) = g (f shape) := by
    simp [moves]
  have hstep : ∀ item ∈ ⟨"bits", toString type.bits⟩ :: cast, ∃ move ∈ moves,
      ∀ shape : ScalarShape, shape.add name item = .ok (move shape) := by
    intro item hitem
    rcases List.mem_cons.mp hitem with rfl | hitem
    · exact ⟨_, List.mem_cons_self, fun shape => ScalarShape.add_bits name shape htype⟩
    · cases hcast with
      | given =>
        rw [List.mem_singleton.mp hitem]
        exact ⟨fun shape => { shape with cast := type.cast }, by simp [moves],
          fun shape => ScalarShape.add_cast name shape type.cast⟩
      | omitted => exact absurd hitem List.not_mem_nil
  have hfold : written.foldlM (ScalarShape.add name) ⟨none, .saturated⟩ =
      .ok ⟨some type.bits, type.cast⟩ := by
    rw [foldlM_eq_of_perm hwritten moves (fun item hitem => hstep item (hwritten.mem_iff.mp hitem))
      hmoves, List.foldlM_cons, ScalarShape.add_bits name _ htype]
    cases hcast with
    | given =>
      show ScalarShape.add name ⟨some type.bits, .saturated⟩ _ >>= _ = _
      rw [ScalarShape.add_cast]
      rfl
    | omitted h =>
      rw [h]
      rfl
  rw [scalar, hfold]
  rfl

/-- The width of void padding is read back. -/
theorem voidWidth_of_perm {name : String} {bits : Nat} {written : List Attribute}
    (h : 1 ≤ bits ∧ bits ≤ 64) (hwritten : written.Perm [⟨"bits", toString bits⟩]) :
    voidWidth ⟨name, written⟩ = .ok bits := by
  rw [List.perm_singleton.mp hwritten]
  exact readAs_eq_ok (width?_toString h) "void" "bits"

/-- The sizing of an array is read back. -/
theorem arraySizing_of_perm {name : String} {sizing : Sizing} {written : List Attribute}
    (h : sizing.capacity < Text.wordSize 64) (hwritten : written.Perm [sizingAttribute sizing]) :
    arraySizing ⟨name, written⟩ = .ok sizing := by
  have hread : readAs count? "array" (sizingAttribute sizing) = .ok sizing.capacity := by
    cases sizing <;> exact readAs_eq_ok (count?_toString h) "array" _
  have hadd : addSizing none (sizingAttribute sizing) = .ok (some sizing) := by
    cases sizing <;> exact congrArg (Except.map _) hread
  rw [List.perm_singleton.mp hwritten, arraySizing, List.foldlM_cons, hadd]
  rfl

end Document

end DsdlHeaders
