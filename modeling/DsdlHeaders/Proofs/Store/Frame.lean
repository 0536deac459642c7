import Mathlib.Data.Set.Insert
import DsdlHeaders.Proofs.Store.Steps
import DsdlHeaders.Store.Written

/-!
# What writing leaves alone

Writing headers adds directories and replaces single files; nothing is ever removed. The relation
`SparesOutside touched` says so of two stores: directories stay, and outside the touched places the
files are the same, with the same bytes and modes.

* **It is a preorder** (`refl`, `trans`) and grows with the touched places (`mono`).
* **Located paths stay located** (`SparesOutside.locate`), because only directories are on the way,
  and a file outside the touched places is read as before (`SparesOutside.read`).
* **One step** of each operation: making directories touches no file (`ensureDirectory_spares`), a
  failed write touches none either (`write_error_spares`), and `write_eq_ok` says everything that a
  successful write can have done.
-/

namespace DsdlHeaders.Store

/-- Directories stay directories, and the files outside the touched places are the same. -/
structure SparesOutside (touched : Set Place) (before after : Store) : Prop where
  current : after.current = before.current
  directories : ∀ place, before.node? place = some .directory →
    after.node? place = some .directory
  files : ∀ place, place ∉ touched → ∀ bytes mode,
    after.node? place = some (.file bytes mode) ↔ before.node? place = some (.file bytes mode)

namespace SparesOutside

variable {touched other : Set Place} {before middle after : Store}

/-- Nothing happened. -/
theorem refl (touched : Set Place) (store : Store) : SparesOutside touched store store :=
  ⟨rfl, fun _ h => h, fun _ _ _ _ => Iff.rfl⟩

/-- One change after another. -/
theorem trans (h₁ : SparesOutside touched before middle)
    (h₂ : SparesOutside touched middle after) : SparesOutside touched before after where
  current := h₂.current.trans h₁.current
  directories place h := h₂.directories place (h₁.directories place h)
  files place h bytes mode := (h₂.files place h bytes mode).trans (h₁.files place h bytes mode)

/-- More places may be touched. -/
theorem mono (h : SparesOutside touched before after) (hsub : touched ⊆ other) :
    SparesOutside other before after where
  current := h.current
  directories := h.directories
  files place hplace := h.files place fun hmem => hplace (hsub hmem)

/-- The way along directories stays open. -/
theorem walk (h : SparesOutside touched before after) {start place : Place}
    {steps : List Path.Step} (hwalk : before.walk start steps = .ok place) :
    after.walk start steps = .ok place := by
  induction steps generalizing start with
  | nil => exact hwalk
  | cons step steps ih =>
    cases step with
    | root => exact ih hwalk
    | here => exact ih hwalk
    | up => exact ih hwalk
    | entry name =>
      simp only [Store.walk] at hwalk ⊢
      split_ifs at hwalk ⊢ with hlong
      split at hwalk
      · simp at hwalk
      · simp at hwalk
      · rename_i hnode
        rw [h.directories _ hnode]
        exact ih hwalk

/-- A located path stays located. -/
theorem locate (h : SparesOutside touched before after) {path : String} {spot : Spot}
    (hlocate : before.locate path = .ok spot) : after.locate path = .ok spot := by
  unfold Store.locate at hlocate ⊢
  split_ifs at hlocate ⊢
  simp only [h.current] at hlocate ⊢
  split at hlocate
  · cases hfolder : before.walk before.current (Path.steps path).dropLast with
    | error fault => simp [hfolder, bind, Except.bind] at hlocate
    | ok folder =>
      rw [hfolder] at hlocate
      rw [h.walk hfolder]
      exact hlocate
  · cases hfolder : before.walk before.current (Path.steps path) with
    | error fault => simp [hfolder, bind, Except.bind] at hlocate
    | ok folder =>
      rw [hfolder] at hlocate
      rw [h.walk hfolder]
      exact hlocate

end SparesOutside

/-! ## Reading -/

/-- The bytes of a file at a located path. -/
theorem read_of_node? {store : Store} {path : String} {place : Place} {bytes : ByteArray}
    {mode : Nat} (hlocate : store.locate path = .ok (.entry place false))
    (hnode : store.node? place = some (.file bytes mode)) : store.read path = .ok bytes := by
  simp [read, hlocate, hnode]

/-- Only files can be read, and only at paths that do not ask for a directory. -/
theorem read_eq_ok {store : Store} {path : String} {bytes : ByteArray}
    (h : store.read path = .ok bytes) : ∃ place mode,
      store.locate path = .ok (.entry place false) ∧
        store.node? place = some (.file bytes mode) := by
  unfold read at h
  split at h
  · simp at h
  · simp at h
  · rename_i place asDirectory hlocate
    split at h
    · simp at h
    · simp at h
    · rename_i found mode hnode
      split_ifs at h with hdirectory
      obtain rfl := Except.ok.inj h
      simp only [Bool.not_eq_true] at hdirectory
      subst hdirectory
      exact ⟨place, mode, hlocate, hnode⟩

/-! ## Changing one node -/

/-- The root is always there. -/
theorem ne_nil_of_node?_ne {store : Store} {place : Place}
    (h : store.node? place ≠ some .directory) : place ≠ [] := by
  rintro rfl
  simp [node?] at h

/-- What is at a place after something was put there. -/
theorem node?_insert_self {store : Store} {place : Place} (hplace : place ≠ []) (node : Node) :
    (store.insert place node).node? place = some node := by
  rw [node?_insert, if_neg hplace, if_pos rfl]

/-- What is elsewhere after something was put at a place. -/
theorem node?_insert_of_ne {store : Store} {place other : Place} (h : other ≠ place)
    (node : Node) : (store.insert place node).node? other = store.node? other := by
  rw [node?_insert, if_neg h]
  split_ifs with hroot
  · simp [node?, hroot]
  · rfl

/-- Making a directory where nothing is touches no file. -/
theorem insert_directory_spares {store : Store} {place : Place}
    (h : store.node? place = none) :
    SparesOutside ∅ store (store.insert place .directory) where
  current := rfl
  directories other hother := by
    rw [node?_insert_of_ne _ .directory, hother]
    rintro rfl
    simp [h] at hother
  files other _ bytes mode := by
    by_cases hother : other = place
    · subst hother
      have hroot : other ≠ [] :=
        ne_nil_of_node?_ne (show store.node? other ≠ some .directory by simp [h])
      simp [node?_insert_self hroot, h]
    · rw [node?_insert_of_ne hother]

/-- Putting a file where no directory is touches that file only. -/
theorem insert_file_spares {store : Store} {place : Place} (bytes : ByteArray) (mode : Nat)
    (h : store.node? place ≠ some .directory) :
    SparesOutside {place} store (store.insert place (.file bytes mode)) where
  current := rfl
  directories other hother := by
    rw [node?_insert_of_ne _ (.file bytes mode), hother]
    rintro rfl
    exact h hother
  files other hother _ _ := by
    rw [node?_insert_of_ne hother]

/-! ## Making directories -/

/-- Making a directory touches no file. -/
theorem makeDirectory_spares {store changed : Store} {path : String}
    (h : store.makeDirectory path = .ok changed) : SparesOutside ∅ store changed := by
  unfold makeDirectory at h
  split at h
  · simp at h
  · simp at h
  · split at h
    · simp at h
    · rename_i hnode
      obtain rfl := Except.ok.inj h
      exact insert_directory_spares hnode

/-- Making or keeping a directory touches no file. -/
theorem makeOrKeep_spares (store : Store) (path : String) :
    SparesOutside ∅ store (store.makeOrKeep path).2 := by
  unfold makeOrKeep
  split
  · rename_i hmade
    exact makeDirectory_spares hmade
  · split_ifs <;> exact .refl _ _

/-- Making the directories around a place touches no file. -/
theorem ensureFor_spares (fuel : Nat) (store : Store) (path : String) :
    SparesOutside ∅ store (ensureFor fuel store path).2 := by
  induction fuel generalizing path with
  | zero => exact .refl _ _
  | succ fuel ih =>
    unfold ensureFor
    by_cases hempty : path = ""
    · rw [if_pos hempty]
      exact .refl _ _
    · rw [if_neg hempty]
      split
      · rename_i hmade
        exact makeDirectory_spares hmade
      · split
        · exact .refl _ _
        · rename_i folder _
          have outer := ih folder
          split
          · rename_i houter
            rwa [houter] at outer
          · rename_i houter
            rw [houter] at outer
            exact outer.trans (makeOrKeep_spares _ _)
      · split_ifs <;> exact .refl _ _

/-- Making a directory with the missing ones around it touches no file. -/
theorem ensureDirectory_spares (store : Store) (path : String) :
    SparesOutside ∅ store (store.ensureDirectory path).2 :=
  ensureFor_spares _ _ _

/-! ## Writing -/

/-- Replacing a file needs a located path where no directory is. -/
theorem replace_eq_ok {store changed : Store} {path : String} {bytes : ByteArray} {mode : Nat}
    (h : store.replace path bytes mode = .ok changed) : ∃ place,
      store.locate path = .ok (.entry place false) ∧ store.node? place ≠ some .directory ∧
        changed = store.insert place (.file bytes mode) := by
  unfold replace at h
  split at h
  · simp at h
  · simp at h
  · rename_i place asDirectory hlocate
    split_ifs at h with hdirectory hnode
    obtain rfl := Except.ok.inj h
    simp only [Bool.not_eq_true] at hdirectory
    subst hdirectory
    refine ⟨place, hlocate, ?_, rfl⟩
    intro hfound
    simp [hfound, Node.isDirectory] at hnode

/-- A replacement that is reported succeeded. -/
theorem replaced_eq_ok {store after : Store} {path : String} {bytes : ByteArray} {mode : Nat}
    {reported outcome : Outcome}
    (h : store.replaced path bytes mode reported = (.ok outcome, after)) :
    outcome = reported ∧ store.replace path bytes mode = .ok after := by
  unfold replaced at h
  split at h
  · simp at h
  · rename_i hreplace
    obtain ⟨houtcome, rfl⟩ := Prod.mk.inj h
    exact ⟨(Except.ok.inj houtcome).symm, hreplace⟩

/-- A replacement that fails changes nothing. -/
theorem replaced_eq_error {store after : Store} {path : String} {bytes : ByteArray} {mode : Nat}
    {reported : Outcome} {fault : WriteFault}
    (h : store.replaced path bytes mode reported = (.error fault, after)) : after = store := by
  unfold replaced at h
  split at h
  · exact (Prod.mk.inj h).2.symm
  · simp at h

/-- Everything that a successful write can have done once the directories around the file are
there: the file held the bytes already, another file was replaced, or a new one was created. -/
theorem write_eq_ok {store after : Store} {readOnly : Bool} {path text : String}
    {outcome : Outcome} (h : store.write readOnly path text = (.ok outcome, after)) :
    ∃ middle place, store.ensureDirectory (folderOf path) = (.ok (), middle) ∧
      middle.locate path = .ok (.entry place false) ∧
      ((outcome = .upToDate ∧ after = middle ∧
          ∃ mode, middle.node? place = some (.file (normalize text).toUTF8 mode)) ∨
        (outcome = .replaced ∧
          (∃ old mode, middle.node? place = some (.file old mode) ∧
            old ≠ (normalize text).toUTF8) ∧
          after = middle.insert place (.file (normalize text).toUTF8 (writtenMode readOnly))) ∨
        (outcome = .created ∧ middle.node? place = none ∧
          after = middle.insert place (.file (normalize text).toUTF8 (writtenMode readOnly)))) := by
  unfold write at h
  simp only at h
  generalize (normalize text).toUTF8 = bytes at h ⊢
  split at h
  · simp at h
  · rename_i middle hensure
    split at h
    · -- there is a file
      rename_i existing hread
      obtain ⟨place, mode, hlocate, hnode⟩ := read_eq_ok hread
      split_ifs at h with hsame
      · obtain ⟨houtcome, rfl⟩ := Prod.mk.inj h
        obtain rfl : existing = bytes := ByteArray.ext hsame
        exact ⟨middle, place, hensure, hlocate,
          .inl ⟨(Except.ok.inj houtcome).symm, rfl, mode, hnode⟩⟩
      · obtain ⟨houtcome, hreplace⟩ := replaced_eq_ok h
        obtain ⟨target, htarget, -, rfl⟩ := replace_eq_ok hreplace
        obtain rfl : place = target := by
          simpa using hlocate.symm.trans htarget
        refine ⟨middle, place, hensure, hlocate, .inr (.inl ⟨houtcome, ?_, rfl⟩)⟩
        refine ⟨existing, mode, hnode, ?_⟩
        rintro rfl
        exact hsame rfl
    · -- there is none
      rename_i hread
      obtain ⟨houtcome, hreplace⟩ := replaced_eq_ok h
      obtain ⟨place, hlocate, hdirectory, rfl⟩ := replace_eq_ok hreplace
      refine ⟨middle, place, hensure, hlocate, .inr (.inr ⟨houtcome, ?_, rfl⟩)⟩
      rcases hnode : middle.node? place with _ | _ | ⟨old, mode⟩
      · rfl
      · exact absurd hnode hdirectory
      · rw [read_of_node? hlocate hnode] at hread
        simp at hread
    · simp at h

/-- A write that succeeds touches one file, which can be located and holds the bytes afterwards. -/
theorem write_ok_spares {store after : Store} {readOnly : Bool} {path text : String}
    {outcome : Outcome} (h : store.write readOnly path text = (.ok outcome, after)) :
    ∃ place mode, after.locate path = .ok (.entry place false) ∧
      after.node? place = some (.file (normalize text).toUTF8 mode) ∧
      SparesOutside {place} store after := by
  obtain ⟨middle, place, hensure, hlocate, hcases⟩ := write_eq_ok h
  have spared : SparesOutside {place} store middle := by
    have := ensureDirectory_spares store (folderOf path)
    rw [hensure] at this
    exact this.mono (Set.empty_subset _)
  -- putting the file where no directory is
  have put : middle.node? place ≠ some .directory →
      after = middle.insert place (.file (normalize text).toUTF8 (writtenMode readOnly)) →
      ∃ place mode, after.locate path = .ok (.entry place false) ∧
        after.node? place = some (.file (normalize text).toUTF8 mode) ∧
        SparesOutside {place} store after := by
    rintro hdirectory rfl
    have changed := insert_file_spares (normalize text).toUTF8 (writtenMode readOnly) hdirectory
    exact ⟨place, writtenMode readOnly, changed.locate hlocate,
      node?_insert_self (ne_nil_of_node?_ne hdirectory) _, spared.trans changed⟩
  rcases hcases with ⟨-, rfl, mode, hnode⟩ | ⟨-, ⟨old, mode, hnode, -⟩, hafter⟩ |
    ⟨-, hnode, hafter⟩
  · exact ⟨place, mode, hlocate, hnode, spared⟩
  · exact put (by simp [hnode]) hafter
  · exact put (by simp [hnode]) hafter

/-- A write that fails touches no file. -/
theorem write_error_spares {store after : Store} {readOnly : Bool} {path text : String}
    {fault : WriteFault} (h : store.write readOnly path text = (.error fault, after)) :
    SparesOutside ∅ store after := by
  have spared := ensureDirectory_spares store (folderOf path)
  unfold write at h
  simp only at h
  split at h
  · rename_i hensure
    rw [hensure] at spared
    exact (Prod.mk.inj h).2 ▸ spared
  · rename_i hensure
    rw [hensure] at spared
    split at h
    · split_ifs at h
      · simp at h
      · exact replaced_eq_error h ▸ spared
    · exact replaced_eq_error h ▸ spared
    · exact (Prod.mk.inj h).2 ▸ spared

end DsdlHeaders.Store
