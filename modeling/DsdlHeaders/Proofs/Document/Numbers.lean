import DsdlHeaders.Proofs.Document.Attributes
import DsdlHeaders.Proofs.Header.Constants

/-!
# Numbers in attributes

Widths, port identifiers, sizes and the literals of integer constants are texts of any length, and
each of them is read into a word of its own width. A number that does not fit must be turned down
and must not wrap.

* **Spelling**: `SpellsNat` and `SpellsInt` say which number a text spells, as a positional value
  and without any bound. Leading zeros do not matter (`SpellsNat.of_zeros`).
* **Readers of texts** accept the numbers of their range and no others (`unsigned?_eq_some_iff`,
  `signed?_eq_some_iff`). The range of the signed one has one number more below zero.
* **Distinct keys**: a tag has no key twice (`Tag.nodup_keys`), so that each attribute decides on a
  part of its element alone.
* **Readers of elements** that fold over the attributes come to the number of one of them, or to the
  complaint about it, as long as nothing is wrong with the others (`exists_heading_eq`,
  `exists_scalar_eq`, `voidWidth_eq`, `arraySizing_eq`).

Main statement: an element takes over the number that its attribute spells if that is in the range,
and otherwise turns the attribute down; the literals of integer constants are those that spell a
number of 128 bits (`numbers_are_exact`).
-/

namespace DsdlHeaders

open Markup Text

/-! ## What a text spells -/

section Spelling

variable {s digits : List Char} {n : Nat}

instance (s : List Char) : Decidable (IsDigits s) :=
  decidable_of_iff ((s.isEmpty || !s.all isDigit) = false) isDigits_iff.symm

/-- An optional `+` and one or more digits, with the value that they have in base ten. -/
def SpellsNat (s : List Char) (n : Nat) : Prop :=
  ∃ digits, IsDigits digits ∧ (s = digits ∨ s = '+' :: digits) ∧ n = positional 10 digits

/-- An optional sign and one or more digits, with the value that they have in base ten. -/
def SpellsInt (s : List Char) (value : Int) : Prop :=
  ∃ digits, IsDigits digits ∧
    ((s = digits ∨ s = '+' :: digits) ∧ value = positional 10 digits ∨
      s = '-' :: digits ∧ value = -(positional 10 digits : Int))

/-- Leading zeros change neither whether a text spells a number nor which one. -/
theorem SpellsNat.of_zeros (h : IsDigits digits) (zeros : Nat) :
    SpellsNat (List.replicate zeros '0' ++ digits) (positional 10 digits) := by
  refine ⟨List.replicate zeros '0' ++ digits, ⟨by simp [h.1], ?_⟩, .inl rfl, ?_⟩
  · intro c hc
    rcases List.mem_append.mp hc with hc | hc
    · rw [List.eq_of_mem_replicate hc]
      decide
    · exact h.2 c hc
  · induction zeros with
    | zero => rfl
    | succ zeros ih => rw [List.replicate_succ, List.cons_append, positional_zero_cons, ← ih]

/-- Digits do not start with another character. -/
theorem IsDigits.ne_cons {c : Char} (h : IsDigits digits) (hc : isDigit c = false) :
    digits ≠ c :: s := by
  rintro rfl
  exact absurd (h.2 c List.mem_cons_self) (by simp [hc])

/-- Digits whose value passes a check are read as what is made of their value. -/
theorem natural?_bind_eq_some_iff {α : Type} {fits : Nat → Prop} [DecidablePred fits]
    {make : Nat → α} {a : α} :
    ((natural? digits).bind fun n => if fits n then some (make n) else none) = some a ↔
      IsDigits digits ∧ fits (positional 10 digits) ∧ a = make (positional 10 digits) := by
  rw [Option.bind_eq_some_iff]
  constructor
  · rintro ⟨n, hn, ha⟩
    obtain ⟨hdigits, rfl⟩ := isDigits_of_natural? hn
    split_ifs at ha with hfits
    exact ⟨hdigits, hfits, (Option.some.inj ha).symm⟩
  · rintro ⟨hdigits, hfits, rfl⟩
    refine ⟨positional 10 digits, ?_, if_pos hfits⟩
    rw [natural?, isDigits_iff.mp hdigits, digitsValue_eq]
    rfl

/-- A number is accepted below the bound and nowhere else. -/
theorem unsigned?_eq_some_iff {bound : Nat} :
    unsigned? bound s = some n ↔ SpellsNat s n ∧ n < bound := by
  unfold unsigned?
  split
  · rename_i rest
    rw [natural?_bind_eq_some_iff]
    constructor
    · rintro ⟨hdigits, hfits, rfl⟩
      exact ⟨⟨rest, hdigits, .inr rfl, rfl⟩, hfits⟩
    · rintro ⟨⟨digits, hdigits, rfl | hplus, rfl⟩, hfits⟩
      · exact absurd rfl (IsDigits.ne_cons hdigits (by decide))
      · rw [(List.cons.inj hplus).2]
        exact ⟨hdigits, hfits, rfl⟩
  · rename_i hplain
    rw [natural?_bind_eq_some_iff]
    constructor
    · rintro ⟨hdigits, hfits, rfl⟩
      exact ⟨⟨s, hdigits, .inl rfl, rfl⟩, hfits⟩
    · rintro ⟨⟨digits, hdigits, rfl | rfl, rfl⟩, hfits⟩
      · exact ⟨hdigits, hfits, rfl⟩
      · exact absurd rfl (hplain digits)

/-- A signed number is accepted in its range and nowhere else. -/
theorem signed?_eq_some_iff {half : Nat} {value : Int} (hhalf : 0 < half) :
    signed? half s = some value ↔ SpellsInt s value ∧ -(half : Int) ≤ value ∧ value < half := by
  unfold signed?
  split
  · rename_i rest
    rw [natural?_bind_eq_some_iff]
    constructor
    · rintro ⟨hdigits, hfits, rfl⟩
      exact ⟨⟨rest, hdigits, .inr ⟨rfl, rfl⟩⟩, by omega, by omega⟩
    · rintro ⟨⟨digits, hdigits, ⟨rfl | hplus, -⟩ | ⟨hminus, rfl⟩⟩, hlow, -⟩
      · exact absurd rfl (IsDigits.ne_cons hdigits (by decide))
      · exact absurd (List.cons.inj hplus).1 (by decide)
      · rw [(List.cons.inj hminus).2]
        exact ⟨hdigits, by omega, rfl⟩
  · rename_i rest
    rw [natural?_bind_eq_some_iff]
    constructor
    · rintro ⟨hdigits, hfits, rfl⟩
      exact ⟨⟨rest, hdigits, .inl ⟨.inr rfl, rfl⟩⟩, by omega, by omega⟩
    · rintro ⟨⟨digits, hdigits, ⟨rfl | hplus, rfl⟩ | ⟨hminus, -⟩⟩, -, hhigh⟩
      · exact absurd rfl (IsDigits.ne_cons hdigits (by decide))
      · rw [(List.cons.inj hplus).2]
        exact ⟨hdigits, by omega, rfl⟩
      · exact absurd (List.cons.inj hminus).1 (by decide)
  · rename_i hminus hplus
    rw [natural?_bind_eq_some_iff]
    constructor
    · rintro ⟨hdigits, hfits, rfl⟩
      exact ⟨⟨s, hdigits, .inl ⟨.inl rfl, rfl⟩⟩, by omega, by omega⟩
    · rintro ⟨⟨digits, hdigits, ⟨rfl | rfl, rfl⟩ | ⟨rfl, -⟩⟩, -, hhigh⟩
      · exact ⟨hdigits, by omega, rfl⟩
      · exact absurd rfl (hplus digits)
      · exact absurd rfl (hminus digits)

end Spelling

/-! ## Distinct keys -/

namespace Markup

/-- The key whose value comes next. -/
def AttributeState.pending : AttributeState → Option String
  | .beforeValue key => some key
  | .inValue key _ _ => some key
  | _ => none

/-- Keys without repetition, none of which was seen before, except one whose value is still to
come. -/
structure FreshKeys (seen : List String) (pending : Option String) (keys : List String) : Prop where
  nodup : keys.Nodup
  fresh : ∀ key ∈ keys, key ∈ seen → pending = some key

variable {seen keys : List String} {name : String}

/-- If no value is still to come, one may be. -/
theorem FreshKeys.of_none (h : FreshKeys seen none keys) (pending : Option String) :
    FreshKeys seen pending keys :=
  ⟨h.nodup, fun key hkey hseen => absurd (h.fresh key hkey hseen) (by simp)⟩

/-- Keys that are new after a new key are new before it. -/
theorem FreshKeys.of_new (hname : name ∉ seen) (h : FreshKeys (name :: seen) (some name) keys) :
    FreshKeys seen none keys := by
  refine ⟨h.nodup, fun key hkey hseen => ?_⟩
  obtain rfl := Option.some.inj (h.fresh key hkey (List.mem_cons_of_mem _ hseen))
  exact absurd hseen hname

/-- The key whose value was to come goes before the keys after it. -/
theorem FreshKeys.cons (hname : name ∈ seen) (h : FreshKeys seen none keys) :
    FreshKeys seen (some name) (name :: keys) := by
  have hseen : ∀ key ∈ keys, key ∉ seen := fun key hkey hmem => by
    simpa using h.fresh key hkey hmem
  refine ⟨List.nodup_cons.mpr ⟨fun hmem => hseen name hmem hname, h.nodup⟩, ?_⟩
  intro key hkey hmem
  rcases List.mem_cons.mp hkey with rfl | hkey
  · rfl
  · exact absurd hmem (hseen key hkey)

/-- The keys that are read from a state on are fresh. -/
theorem freshKeys_attributesFrom (state : AttributeState) (s : List Char)
    (hpending : ∀ key ∈ state.pending, key ∈ seen) :
    FreshKeys seen state.pending ((attributesFrom seen state s).map Attribute.key) := by
  induction s generalizing seen state with
  | nil =>
    rw [attributesFrom_nil]
    exact ⟨List.nodup_nil, fun key hkey => absurd hkey List.not_mem_nil⟩
  | cons c s ih =>
    have hnone : ∀ state : AttributeState, state.pending = none →
        FreshKeys seen none ((attributesFrom seen state s).map Attribute.key) := by
      intro state hstate
      rw [← hstate]
      exact ih state (by simp [hstate])
    have hnew : ∀ {name : String}, name ∉ seen →
        FreshKeys seen none
          ((attributesFrom (name :: seen) (.beforeValue name) s).map Attribute.key) := by
      intro name hname
      refine .of_new hname (ih (.beforeValue name) fun key hkey => ?_)
      rw [← Option.some.inj hkey]
      exact List.mem_cons_self
    cases state with
    | between =>
      rw [attributesFrom]
      split_ifs
      · exact hnone _ rfl
      · exact hnone _ rfl
    | inKey key =>
      rw [attributesFrom]
      dsimp only
      split_ifs with heq hseen hgap
      · exact hnone _ rfl
      · exact hnew hseen
      · exact hnone _ rfl
      · exact hnone _ rfl
    | afterKey key =>
      rw [attributesFrom]
      dsimp only
      split_ifs with heq hseen hgap
      · exact hnone _ rfl
      · exact hnew hseen
      · exact hnone _ rfl
      · exact hnone _ rfl
    | beforeValue key =>
      rw [attributesFrom]
      split_ifs
      · exact ih (.beforeValue key) hpending
      · exact ih (.inValue key c []) hpending
      · exact (hnone .passing rfl).of_none _
    | inValue key quote value =>
      rw [attributesFrom]
      split_ifs
      · rw [List.map_cons]
        exact .cons (hpending key rfl) (hnone _ rfl)
      · exact ih (.inValue key quote (c :: value)) hpending
    | passing =>
      rw [attributesFrom]
      split_ifs
      · exact hnone _ rfl
      · exact hnone _ rfl

/-- A tag has no key twice. -/
theorem Tag.nodup_keys (content : List Char) :
    ((Tag.ofContent content).attributes.map Attribute.key).Nodup :=
  (freshKeys_attributesFrom .between _ (by simp [AttributeState.pending])).nodup

/-- An attribute of a tag without repeated keys is found. -/
theorem Tag.get?_of_mem {tag : Tag} {item : Attribute}
    (hdistinct : (tag.attributes.map Attribute.key).Nodup) (hitem : item ∈ tag.attributes) :
    tag.get? item.key = some item.value :=
  Document.get?_of_perm (.refl _) hdistinct hitem

/-- An attribute that is found stands among attributes with other keys. -/
theorem Tag.exists_split_of_get? {tag : Tag} {key value : String}
    (hdistinct : (tag.attributes.map Attribute.key).Nodup) (h : tag.get? key = some value) :
    ∃ before after, tag.attributes = before ++ ⟨key, value⟩ :: after ∧
      ∀ item ∈ before ++ after, item.key ≠ key := by
  obtain ⟨item, hfind, rfl⟩ := Option.map_eq_some_iff.mp h
  obtain ⟨hkey, before, after, hsplit, hbefore⟩ := List.find?_eq_some_iff_append.mp hfind
  obtain rfl : item.key = key := by simpa using hkey
  refine ⟨before, after, hsplit, fun other hother => ?_⟩
  rcases List.mem_append.mp hother with hmem | hmem
  · simpa using hbefore other hmem
  · rw [hsplit, List.map_append, List.map_cons] at hdistinct
    obtain ⟨hnew, -⟩ := List.nodup_cons.mp (List.nodup_append.mp hdistinct).2.1
    intro hsame
    exact hnew (hsame ▸ List.mem_map_of_mem hmem)

/-- An attribute that is not found is not there. -/
theorem Tag.key_ne_of_get?_eq_none {tag : Tag} {key : String} (h : tag.get? key = none)
    {item : Attribute} (hitem : item ∈ tag.attributes) : item.key ≠ key := by
  have hnone := List.find?_eq_none.mp (Option.map_eq_none_iff.mp h) item hitem
  simpa using hnone

end Markup

namespace Document

variable {tag : Tag} {key value : String}

/-! ## One attribute among others -/

section Folds

variable {σ α β γ ε : Type} {part : σ → β}

/-- Steps that succeed and leave a part of the state alone do so together. -/
theorem foldlM_keeps {step : σ → α → Except ε σ} {items : List α}
    (h : ∀ a ∈ items, ∀ s, ∃ t, step s a = .ok t ∧ part t = part s) (s : σ) :
    ∃ t, items.foldlM step s = .ok t ∧ part t = part s := by
  induction items generalizing s with
  | nil => exact ⟨s, rfl, rfl⟩
  | cons a items ih =>
    obtain ⟨ha, hitems⟩ := List.forall_mem_cons.mp h
    obtain ⟨u, hu, hpart⟩ := ha s
    obtain ⟨t, ht, hkept⟩ := ih hitems u
    refine ⟨t, ?_, hkept.trans hpart⟩
    rw [List.foldlM_cons, hu]
    exact ht

/-- If all other attributes of a tag are good and leave a part of the state alone, then the
attributes together fail as the one does, or come to what it puts there. -/
theorem foldlM_attributes (step : σ → Attribute → Except ε σ) (part : σ → β) (s : σ)
    (read : Except ε γ) (put : σ → γ → σ) (hdistinct : (tag.attributes.map Attribute.key).Nodup)
    (hvalue : tag.get? key = some value)
    (hothers : ∀ item ∈ tag.attributes, item.key ≠ key →
      ∀ u, ∃ t, step u item = .ok t ∧ part t = part u)
    (hitem : ∀ u, part u = part s → step u ⟨key, value⟩ = read.map (put u)) :
    (∀ error, read = .error error → tag.attributes.foldlM step s = .error error) ∧
      ∀ found, read = .ok found → ∃ u t, part u = part s ∧
        tag.attributes.foldlM step s = .ok t ∧ part t = part (put u found) := by
  obtain ⟨before, after, hsplit, hkeys⟩ := Tag.exists_split_of_get? hdistinct hvalue
  have hkeeps : ∀ item ∈ before ++ after, ∀ u, ∃ t, step u item = .ok t ∧ part t = part u := by
    intro item hmem
    refine hothers item ?_ (hkeys item hmem)
    rw [hsplit]
    rcases List.mem_append.mp hmem with hmem | hmem <;> simp [hmem]
  obtain ⟨hbefore, hafter⟩ := List.forall_mem_append.mp hkeeps
  obtain ⟨u, hu, hpart⟩ := foldlM_keeps hbefore s
  have hfold : tag.attributes.foldlM step s =
      read.map (put u) >>= fun t => after.foldlM step t := by
    rw [hsplit, List.foldlM_append, hu]
    show List.foldlM step u (⟨key, value⟩ :: after) = _
    rw [List.foldlM_cons, hitem u hpart]
  constructor
  · rintro error rfl
    rw [hfold]
    rfl
  · rintro found rfl
    obtain ⟨t, ht, hkept⟩ := foldlM_keeps hafter (put u found)
    exact ⟨u, t, hpart, hfold.trans ht, hkept⟩

end Folds

/-- A value that cannot be read is complained about. -/
theorem readAs_eq_error {α : Type} {read? : String → Option α} (h : read? value = none)
    (element key : String) :
    readAs read? element ⟨key, value⟩ = .error (.invalidAttribute element key value) := by
  unfold readAs
  rw [h]

/-! ## Readers of elements -/

/-- An attribute of a definition changes only what it is about, if it can be read. -/
theorem Heading.exists_add_eq {item : Attribute} (element : String)
    (hportId : item.key = "fixedPortId" → (portId? item.value).isSome)
    (hunion : item.key = "union" → (truth? item.value).isSome) (heading : Heading) :
    ∃ added, heading.add element item = .ok added ∧
      (item.key ≠ "fixedPortId" → added.portId = heading.portId) ∧
      (item.key ≠ "name" → added.fullName = heading.fullName) := by
  unfold add
  split_ifs with hname hport hflag
  · exact ⟨_, rfl, fun _ => rfl, fun hne => absurd hname hne⟩
  · obtain ⟨portId, hread⟩ := Option.isSome_iff_exists.mp (hportId hport)
    rw [readAs, hread]
    exact ⟨_, rfl, fun hne => absurd hport hne, fun _ => rfl⟩
  · obtain ⟨isUnion, hread⟩ := Option.isSome_iff_exists.mp (hunion hflag)
    rw [readAs, hread]
    exact ⟨_, rfl, fun _ => rfl, fun _ => rfl⟩
  · exact ⟨_, rfl, fun _ => rfl, fun _ => rfl⟩

/-- A definition with a name and a good union flag takes over its port identifier, or complains
about it. -/
theorem exists_heading_eq {fullName : String} (element : String)
    (hdistinct : (tag.attributes.map Attribute.key).Nodup) (hname : tag.get? "name" = some fullName)
    (hunion : ∀ text, tag.get? "union" = some text → (truth? text).isSome)
    (hvalue : tag.get? "fixedPortId" = some value) :
    ∃ isUnion, heading element tag = (readAs portId? element ⟨"fixedPortId", value⟩).map
      fun portId => (fullName, some portId, isUnion) := by
  have hgood : ∀ item ∈ tag.attributes, item.key = "union" → (truth? item.value).isSome :=
    fun item hitem hkey => hunion _ (hkey ▸ Tag.get?_of_mem hdistinct hitem)
  obtain ⟨hfails, hfold⟩ := foldlM_attributes (Heading.add element) Heading.portId
    ⟨none, none, false⟩ (readAs portId? element ⟨"fixedPortId", value⟩)
    (fun heading portId => { heading with portId := some portId }) hdistinct hvalue
    (fun item hitem hne heading => by
      obtain ⟨added, hadded, hkept, -⟩ := Heading.exists_add_eq element
        (fun hport => absurd hport hne) (hgood item hitem) heading
      exact ⟨added, hadded, hkept hne⟩)
    (fun heading _ => by rw [Heading.add, if_neg (by simp), if_pos rfl])
  cases hread : portId? value with
  | none =>
    have herror := readAs_eq_error hread element "fixedPortId"
    refine ⟨false, ?_⟩
    rw [heading, hfails _ herror, herror]
    rfl
  | some portId =>
    have hok := readAs_eq_ok hread element "fixedPortId"
    obtain ⟨_, found, -, hfound, hportId⟩ := hfold portId hok
    -- all attributes can be read, so the name is taken over as well
    obtain ⟨-, hnamed⟩ := foldlM_attributes (Heading.add element) Heading.fullName
      ⟨none, none, false⟩ (.ok fullName)
      (fun heading name => { heading with fullName := some name }) hdistinct hname
      (fun item hitem hne heading => by
        have hportId : item.key = "fixedPortId" → (portId? item.value).isSome := by
          intro hkey
          have hsame := Tag.get?_of_mem hdistinct hitem
          rw [hkey, hvalue] at hsame
          rw [← Option.some.inj hsame, hread]
          rfl
        obtain ⟨added, hadded, -, hkept⟩ :=
          Heading.exists_add_eq element hportId (hgood item hitem) heading
        exact ⟨added, hadded, hkept hne⟩)
      (fun heading _ => Heading.add_name element heading fullName)
    obtain ⟨_, same, -, hsame, hfullName⟩ := hnamed fullName rfl
    obtain rfl := Except.ok.inj (hfound.symm.trans hsame)
    refine ⟨found.isUnion, ?_⟩
    rw [heading, hfound, hok]
    obtain ⟨foundName, foundPortId, isUnion⟩ := found
    obtain rfl : foundName = some fullName := hfullName
    obtain rfl : foundPortId = some portId := hportId
    rfl

/-- A primitive type with a good cast mode takes over its width, or complains about it. -/
theorem exists_scalar_eq (kind : ScalarKind)
    (hdistinct : (tag.attributes.map Attribute.key).Nodup)
    (hcast : ∀ text, tag.get? "cast" = some text → (CastMode.parse? text).isSome)
    (hvalue : tag.get? "bits" = some value) :
    ∃ cast, scalar kind tag = (readAs width? tag.name ⟨"bits", value⟩).map
      fun bits => ⟨kind, bits, cast⟩ := by
  obtain ⟨hfails, hfold⟩ := foldlM_attributes (ScalarShape.add tag.name) ScalarShape.bits
    ⟨none, .saturated⟩ (readAs width? tag.name ⟨"bits", value⟩)
    (fun shape bits => { shape with bits := some bits }) hdistinct hvalue
    (fun item hitem hne shape => by
      show ∃ added, ScalarShape.add tag.name shape item = .ok added ∧ _
      rw [ScalarShape.add, if_neg hne]
      split_ifs with hkey
      · have hfound := Tag.get?_of_mem hdistinct hitem
        obtain ⟨cast, hread⟩ := Option.isSome_iff_exists.mp (hcast _ (hkey ▸ hfound))
        rw [readAs, hread]
        exact ⟨_, rfl, rfl⟩
      · exact ⟨shape, rfl, rfl⟩)
    (fun shape _ => by rw [ScalarShape.add, if_pos rfl])
  cases hread : width? value with
  | none =>
    have herror := readAs_eq_error hread tag.name "bits"
    refine ⟨.saturated, ?_⟩
    rw [scalar, hfails _ herror, herror]
    rfl
  | some bits =>
    have hok := readAs_eq_ok hread tag.name "bits"
    obtain ⟨_, found, -, hfound, hbits⟩ := hfold bits hok
    refine ⟨found.cast, ?_⟩
    rw [scalar, hfound, hok]
    obtain ⟨foundBits, cast⟩ := found
    obtain rfl : foundBits = some bits := hbits
    rfl

/-- Void padding takes over its width, or complains about it. -/
theorem voidWidth_eq (hvalue : tag.get? "bits" = some value) :
    voidWidth tag = readAs width? "void" ⟨"bits", value⟩ := by
  rw [voidWidth, required, hvalue]
  rfl

/-- An attribute that is no size leaves the sizing of an array alone. -/
theorem addSizing_of_ne {item : Attribute} (sizing : Option Sizing) (hsize : item.key ≠ "size")
    (hmaxSize : item.key ≠ "maxSize") : addSizing sizing item = .ok sizing := by
  unfold addSizing
  rw [if_neg hsize, if_neg hmaxSize]

/-- An array with one size takes it over, or complains about it. -/
theorem arraySizing_eq {other : String} {make : Nat → Sizing}
    (hdistinct : (tag.attributes.map Attribute.key).Nodup)
    (hkey : key = "size" ∧ other = "maxSize" ∧ make = .static ∨
      key = "maxSize" ∧ other = "size" ∧ make = .dynamic)
    (hvalue : tag.get? key = some value) (hother : tag.get? other = none) :
    arraySizing tag = (readAs count? "array" ⟨key, value⟩).map make := by
  obtain ⟨hfails, hfold⟩ := foldlM_attributes addSizing id none
    (readAs count? "array" ⟨key, value⟩) (fun _ count => some (make count)) hdistinct hvalue
    (fun item hitem hne sizing => by
      have hneOther := Tag.key_ne_of_get?_eq_none hother hitem
      refine ⟨sizing, ?_, rfl⟩
      obtain ⟨rfl, rfl, -⟩ | ⟨rfl, rfl, -⟩ := hkey
      · exact addSizing_of_ne sizing hne hneOther
      · exact addSizing_of_ne sizing hneOther hne)
    (fun sizing hnone => by
      obtain rfl : sizing = none := hnone
      obtain ⟨rfl, -, rfl⟩ | ⟨rfl, -, rfl⟩ := hkey <;> rfl)
  cases hread : count? value with
  | none =>
    have herror := readAs_eq_error hread "array" key
    rw [arraySizing, hfails _ herror, herror]
    rfl
  | some count =>
    have hok := readAs_eq_ok hread "array" key
    obtain ⟨_, found, -, hfound, hsizing⟩ := hfold count hok
    obtain rfl : found = some (make count) := hsizing
    rw [arraySizing, hfound, hok]
    rfl

/-! ## Exact numbers -/

/-- A result is the number that a text spells, if that is in a range, and otherwise the complaint
about the attribute. -/
structure TakesNumber {α : Type} (result : Except DocumentError α) (build : Nat → α)
    (range : Nat → Prop) (element key value : String) : Prop where
  /-- What is accepted, and what it becomes. -/
  accepted : ∀ found, result = .ok found ↔
    ∃ n, SpellsNat value.toList n ∧ range n ∧ found = build n
  /-- What is turned down, and how. -/
  rejected : (¬ ∃ n, SpellsNat value.toList n ∧ range n) →
    result = .error (.invalidAttribute element key value)

/-- An element that reads one number takes over what the reader of texts accepts. -/
theorem takesNumber_of_eq {α : Type} {result : Except DocumentError α} {build : Nat → α}
    {range : Nat → Prop} {read? : String → Option Nat} {element : String}
    (hread : ∀ n, read? value = some n ↔ SpellsNat value.toList n ∧ range n)
    (h : result = (readAs read? element ⟨key, value⟩).map build) :
    TakesNumber result build range element key value := by
  subst h
  cases hvalue : read? value with
  | none =>
    have hnone : ¬ ∃ n, SpellsNat value.toList n ∧ range n := by
      rintro ⟨n, hn⟩
      exact absurd (hvalue.symm.trans ((hread n).mpr hn)) (by simp)
    rw [readAs_eq_error hvalue]
    refine ⟨fun found => ⟨fun hfound => absurd hfound (by simp [Except.map]), ?_⟩, fun _ => rfl⟩
    rintro ⟨n, hspells, hrange, -⟩
    exact absurd ⟨n, hspells, hrange⟩ hnone
  | some n =>
    obtain ⟨hspells, hrange⟩ := (hread n).mp hvalue
    rw [readAs_eq_ok hvalue]
    refine ⟨fun found => ⟨?_, ?_⟩, fun hnone => absurd ⟨n, hspells, hrange⟩ hnone⟩
    · intro hfound
      exact ⟨n, hspells, hrange, (Except.ok.inj hfound).symm⟩
    · rintro ⟨m, hm, hrangeM, rfl⟩
      obtain rfl := Option.some.inj (hvalue.symm.trans ((hread m).mpr ⟨hm, hrangeM⟩))
      rfl

/-- The widths that are accepted. -/
theorem width?_eq_some_iff {n : Nat} :
    width? value = some n ↔ SpellsNat value.toList n ∧ 1 ≤ n ∧ n ≤ 64 := by
  unfold width?
  rw [Option.bind_eq_some_iff]
  constructor
  · rintro ⟨bits, hbits, hrange⟩
    split_ifs at hrange with hfits
    obtain rfl := Option.some.inj hrange
    exact ⟨(unsigned?_eq_some_iff.mp hbits).1, by simpa using hfits⟩
  · rintro ⟨hspells, hlow, hhigh⟩
    -- every width in the range fits the byte that widths are read into
    refine ⟨n, unsigned?_eq_some_iff.mpr ⟨hspells, by omega⟩, ?_⟩
    rw [if_pos (by simpa using ⟨hlow, hhigh⟩)]

/-- The integer literals that are accepted. -/
theorem spelling_isOk_iff {name : String} {type : Primitive} (htype : type.kind ≠ .floating) :
    ((∃ spelling, (⟨name, type, value⟩ : Constant).spelling = .ok spelling) ↔
      ∃ n, SpellsInt value.toList n ∧ -2 ^ 127 ≤ n ∧ n < 2 ^ 127) ∧
    ((¬ ∃ n, SpellsInt value.toList n ∧ -2 ^ 127 ≤ n ∧ n < 2 ^ 127) →
      (⟨name, type, value⟩ : Constant).spelling = .error .integer) := by
  have hkind : type.kind.isFloating = false := by
    simpa [ScalarKind.isFloating] using htype
  have hread : ∀ n, signed? (wordSize 127) value.toList = some n ↔
      SpellsInt value.toList n ∧ -2 ^ 127 ≤ n ∧ n < 2 ^ 127 := fun n =>
    signed?_eq_some_iff (show 0 < wordSize 127 by decide)
  simp only [Constant.spelling, hkind, Bool.false_eq_true, if_false, ← hread]
  cases signed? (wordSize 127) value.toList with
  | none => simp
  | some n => simp

/-- **Numbers are taken over as they are written.** An element takes over the number that its
attribute spells if that is in the range of the attribute, and turns the attribute down otherwise,
provided that nothing is wrong with its other attributes. The literals of integer constants are
those that spell a number of 128 bits. -/
theorem numbers_are_exact {tag : Tag} {content : List Char} (htag : tag = .ofContent content)
    (value : String) :
    (tag.get? "bits" = some value →
      TakesNumber (voidWidth tag) id (fun n => 1 ≤ n ∧ n ≤ 64) "void" "bits" value ∧
      ∀ kind, (∀ text, tag.get? "cast" = some text → (CastMode.parse? text).isSome) →
        ∃ cast, TakesNumber (scalar kind tag) (fun n => ⟨kind, n, cast⟩)
          (fun n => 1 ≤ n ∧ n ≤ 64) tag.name "bits" value) ∧
    (tag.get? "fixedPortId" = some value →
      ∀ element fullName, tag.get? "name" = some fullName →
        (∀ text, tag.get? "union" = some text → (truth? text).isSome) →
        ∃ isUnion, TakesNumber (heading element tag) (fun n => (fullName, some n, isUnion))
          (fun n => n < 2 ^ 32) element "fixedPortId" value) ∧
    (tag.get? "size" = some value → tag.get? "maxSize" = none →
      TakesNumber (arraySizing tag) .static (fun n => n < 2 ^ 64) "array" "size" value) ∧
    (tag.get? "maxSize" = some value → tag.get? "size" = none →
      TakesNumber (arraySizing tag) .dynamic (fun n => n < 2 ^ 64) "array" "maxSize" value) ∧
    ∀ name type, type.kind ≠ .floating →
      ((∃ spelling, (⟨name, type, value⟩ : Constant).spelling = .ok spelling) ↔
        ∃ n, SpellsInt value.toList n ∧ -2 ^ 127 ≤ n ∧ n < 2 ^ 127) ∧
      ((¬ ∃ n, SpellsInt value.toList n ∧ -2 ^ 127 ≤ n ∧ n < 2 ^ 127) →
        (⟨name, type, value⟩ : Constant).spelling = .error .integer) := by
  have hdistinct := Tag.nodup_keys content
  rw [← htag] at hdistinct
  refine ⟨fun hbits => ⟨?_, ?_⟩, ?_, ?_, ?_, ?_⟩
  · refine takesNumber_of_eq (fun n => width?_eq_some_iff) ?_
    rw [voidWidth_eq hbits]
    cases readAs width? "void" ⟨"bits", value⟩ <;> rfl
  · intro kind hcast
    obtain ⟨cast, hscalar⟩ := exists_scalar_eq kind hdistinct hcast hbits
    exact ⟨cast, takesNumber_of_eq (fun n => width?_eq_some_iff) hscalar⟩
  · intro hport element fullName hname hunion
    obtain ⟨isUnion, hheading⟩ := exists_heading_eq element hdistinct hname hunion hport
    exact ⟨isUnion, takesNumber_of_eq (fun n => unsigned?_eq_some_iff) hheading⟩
  · intro hsize hnone
    exact takesNumber_of_eq (fun n => unsigned?_eq_some_iff)
      (arraySizing_eq hdistinct (.inl ⟨rfl, rfl, rfl⟩) hsize hnone)
  · intro hsize hnone
    exact takesNumber_of_eq (fun n => unsigned?_eq_some_iff)
      (arraySizing_eq hdistinct (.inr ⟨rfl, rfl, rfl⟩) hsize hnone)
  · intro name type htype
    exact spelling_isOk_iff htype

/-- A type with leading zeros in its width. -/
def paddedWidth : Tag :=
  .ofContent "uint cast=\"truncated\" bits=\"0000064\"".toList

/-- A message whose port identifier is the first that does not fit. -/
def highPort : Tag :=
  .ofContent "message name=\"a.B\" fixedPortId=\"+4294967296\"".toList

/-- Leading zeros leave a width as it is, the first port identifier that does not fit is turned
down, and the lowest number of 128 bits is accepted. -/
theorem numbers_are_exact_paddedWidth :
    (∃ cast, scalar .unsigned paddedWidth = .ok ⟨.unsigned, 64, cast⟩) ∧
    heading "message" highPort =
      .error (.invalidAttribute "message" "fixedPortId" "+4294967296") ∧
    ∃ spelling, (⟨"K", ⟨.signed, 64, .saturated⟩, "-170141183460469231731687303715884105728"⟩ :
      Constant).spelling = .ok spelling := by
  refine ⟨?_, ?_, ?_⟩
  · have hbits : paddedWidth.get? "bits" = some "0000064" := by decide +kernel
    have hcast : paddedWidth.get? "cast" = some "truncated" := by decide +kernel
    obtain ⟨cast, htakes⟩ := ((numbers_are_exact rfl "0000064").1 hbits).2 .unsigned <| by
      intro text htext
      rw [← Option.some.inj (hcast.symm.trans htext)]
      decide
    have hdigits : IsDigits ['6', '4'] := by decide
    have hspells : SpellsNat "0000064".toList 64 := .of_zeros hdigits 5
    exact ⟨cast, (htakes.accepted _).mpr ⟨64, hspells, by omega, rfl⟩⟩
  · have hport : highPort.get? "fixedPortId" = some "+4294967296" := by decide +kernel
    have hname : highPort.get? "name" = some "a.B" := by decide +kernel
    have hunion : highPort.get? "union" = none := by decide +kernel
    obtain ⟨isUnion, htakes⟩ := (numbers_are_exact rfl "+4294967296").2.1 hport "message" "a.B"
      hname fun text htext => absurd (hunion.symm.trans htext) (by simp)
    refine htakes.rejected ?_
    rintro ⟨n, hn⟩
    have hread : unsigned? (2 ^ 32) "+4294967296".toList = none := by decide
    exact absurd (hread.symm.trans (unsigned?_eq_some_iff.mpr hn)) (by simp)
  · have hempty : Tag.ofContent [] = .ofContent [] := rfl
    refine ((numbers_are_exact hempty _).2.2.2.2 "K" _ (by simp)).1.mpr
      ⟨-2 ^ 127, ?_, by omega, by omega⟩
    exact ⟨"170141183460469231731687303715884105728".toList, by decide, .inr (by decide)⟩

end Document

end DsdlHeaders
