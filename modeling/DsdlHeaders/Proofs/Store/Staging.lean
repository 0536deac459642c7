import DsdlHeaders.Proofs.Store.Hierarchy
import DsdlHeaders.Store.Staged

/-!
# A temporary file leaves no trace

Writing through a temporary file takes several steps, each of which can fail. Seen from outside
there are two ends: the file was replaced as `Store.write` replaces it, or only directories were
made.

* **Coming and going.** A file that was put where nothing was and is taken away again leaves the
  store as it was (`erase_insert`). While it is there, no way leads through it (`locate_of_insert`).
* **Replacing.** The steps together replace a file (`replace_of_replaceThrough`) or change nothing
  (`store_of_replaceThrough`), whatever the temporary file is called. If its path is free, they
  replace what can be replaced (`replaceThrough_of_replace`).
* **Writing.** The same holds for whole writes (`write_of_writeThrough`,
  `store_of_writeThrough_error`, `writeThrough_of_write`).
-/

namespace DsdlHeaders.Store

variable {store after : Store} {temporary path : String} {bytes : ByteArray} {readOnly : Bool}

/-! ## Coming and going -/

/-- Something is at the root. -/
theorem ne_nil_of_node?_eq_none {place : Place} (h : store.node? place = none) : place ≠ [] :=
  ne_nil_of_node?_ne (show store.node? place ≠ some .directory by simp [h])

/-- What is no directory. -/
theorem any_isDirectory_eq_false {place : Place} (h : store.node? place ≠ some .directory) :
    (store.node? place).any Node.isDirectory = false := by
  rcases hnode : store.node? place with _ | _ | ⟨bytes, mode⟩
  · rfl
  · exact absurd hnode h
  · rfl

/-- What is not found is not listed. -/
theorem not_mem_of_find?_eq_none {place : Place} {nodes : List (Place × Node)}
    (h : find? place nodes = none) : ∀ entry ∈ nodes, entry.1 ≠ place := by
  induction nodes with
  | nil => simp
  | cons entry nodes ih =>
    obtain ⟨other, node⟩ := entry
    unfold find? at h
    split_ifs at h with hother
    exact List.forall_mem_cons.mpr ⟨hother, ih h⟩

/-- A node that was put where nothing was and removed again leaves no trace. -/
theorem erase_insert {place : Place} (h : store.node? place = none) (node : Node) :
    (store.insert place node).erase place = store := by
  have hroot := ne_nil_of_node?_eq_none h
  have hfree : find? place store.nodes = none := by simpa [node?, hroot] using h
  have hkept : (store.nodes.filter fun entry => entry.1 ≠ place) = store.nodes := by
    rw [List.filter_eq_self]
    intro entry hentry
    simpa using not_mem_of_find?_eq_none hfree entry hentry
  unfold erase insert
  rw [List.filter_cons_of_neg (by simp), hkept, hkept]

/-- The second of two nodes at one place counts. -/
theorem insert_insert (store : Store) (place : Place) (first second : Node) :
    (store.insert place first).insert place second = store.insert place second := by
  simp [insert, List.filter_filter]

/-- No way leads through a file. -/
theorem walk_of_insert {place : Place} {mode : Nat} {start target : Place}
    {steps : List Path.Step}
    (h : (store.insert place (.file bytes mode)).walk start steps = .ok target)
    (hroot : place ≠ []) : store.walk start steps = .ok target := by
  induction steps generalizing start with
  | nil => exact h
  | cons step steps ih =>
    cases step with
    | root => exact ih h
    | here => exact ih h
    | up => exact ih h
    | entry name =>
      simp only [walk] at h ⊢
      split_ifs at h ⊢ with hlong
      by_cases hplace : start ++ [name] = place
      · rw [hplace, node?_insert_self hroot] at h
        exact absurd h (by simp)
      · rw [node?_insert_of_ne hplace] at h
        split at h
        · exact absurd h (by simp)
        · exact absurd h (by simp)
        · exact ih h

/-- A path that can be located beside a new file could be located before. -/
theorem locate_of_insert {place : Place} {mode : Nat} {spot : Spot} (hroot : place ≠ [])
    (h : (store.insert place (.file bytes mode)).locate path = .ok spot) :
    store.locate path = .ok spot := by
  have hcurrent : (store.insert place (.file bytes mode)).current = store.current := rfl
  unfold locate at h ⊢
  split_ifs at h ⊢
  simp only [hcurrent] at h ⊢
  split at h
  · cases hfolder : (store.insert place (.file bytes mode)).walk store.current
      (Path.steps path).dropLast with
    | error fault => exact absurd h (by simp [hfolder, bind, Except.bind])
    | ok folder =>
      rw [hfolder] at h
      rw [walk_of_insert hfolder hroot]
      exact h
  · cases hfolder : (store.insert place (.file bytes mode)).walk store.current
      (Path.steps path) with
    | error fault => exact absurd h (by simp [hfolder, bind, Except.bind])
    | ok folder =>
      rw [hfolder] at h
      rw [walk_of_insert hfolder hroot]
      exact h

/-! ## Replacing -/

/-- A path at which a file can be made. -/
def IsFree (store : Store) (path : String) : Prop :=
  ∃ place, store.locate path = .ok (.entry place false) ∧ store.node? place = none

/-- A file is made at a free path. -/
theorem create_eq_ok (h : store.create path bytes = .ok after) : ∃ place,
    store.locate path = .ok (.entry place false) ∧ store.node? place = none ∧
      after = store.insert place (.file bytes temporaryMode) := by
  unfold create at h
  split at h
  · exact absurd h (by simp)
  · exact absurd h (by simp)
  · rename_i place asDirectory hlocate
    split at h
    · exact absurd h (by simp)
    · rename_i hnode
      split_ifs at h with hdirectory
      obtain rfl := Except.ok.inj h
      rw [Bool.not_eq_true] at hdirectory
      exact ⟨place, hdirectory ▸ hlocate, hnode, rfl⟩

/-- Moving a new file replaces what is at the other path by it, and nothing else changes. -/
theorem rename_eq_ok {place : Place} {mode : Nat}
    (hlocate : store.locate temporary = .ok (.entry place false))
    (hfree : store.node? place = none)
    (h : (store.insert place (.file bytes mode)).rename temporary path = .ok after) :
    store.replace path bytes mode = .ok after := by
  have hroot := ne_nil_of_node?_eq_none hfree
  have hspares := insert_file_spares bytes mode (show store.node? place ≠ some .directory by
    simp [hfree])
  unfold rename at h
  rw [hspares.locate hlocate] at h
  simp only [node?_insert_self hroot, erase_insert hfree] at h
  split at h
  · exact absurd h (by simp)
  · exact absurd h (by simp)
  · rename_i target asDirectory htarget
    split_ifs at h with hdirectory hnode
    have hbefore : (store.node? target).any Node.isDirectory = false := by
      by_cases hsame : target = place
      · simp [hsame, hfree]
      · rw [node?_insert_of_ne hsame] at hnode
        simpa using hnode
    unfold replace
    rw [locate_of_insert hroot htarget]
    simp only [hdirectory, hbefore]
    exact h

/-- What can be replaced can be replaced by moving a new file there. -/
theorem rename_of_replace {place : Place} {mode : Nat}
    (hlocate : store.locate temporary = .ok (.entry place false))
    (hfree : store.node? place = none) (h : store.replace path bytes mode = .ok after) :
    (store.insert place (.file bytes mode)).rename temporary path = .ok after := by
  have hroot := ne_nil_of_node?_eq_none hfree
  have hspares := insert_file_spares bytes mode (show store.node? place ≠ some .directory by
    simp [hfree])
  obtain ⟨target, htarget, hnode, rfl⟩ := replace_eq_ok h
  have hbeside : ((store.insert place (.file bytes mode)).node? target).any Node.isDirectory =
      false := by
    apply any_isDirectory_eq_false
    by_cases hsame : target = place
    · simp [hsame, node?_insert_self hroot]
    · rwa [node?_insert_of_ne hsame]
  unfold rename
  rw [hspares.locate hlocate, hspares.locate htarget]
  simp only [node?_insert_self hroot, erase_insert hfree, hbeside]
  simp

/-- A file that was put at a path gets another mode, as if it had been put there with it. -/
theorem setMode_of_replace {mode : Nat} (other : Nat)
    (h : store.replace path bytes mode = .ok after) : ∃ final,
    after.setMode path other = .ok final ∧ store.replace path bytes other = .ok final := by
  obtain ⟨place, hlocate, hnode, rfl⟩ := replace_eq_ok h
  have hroot := ne_nil_of_node?_ne hnode
  have hplain := any_isDirectory_eq_false hnode
  refine ⟨store.insert place (.file bytes other), ?_, ?_⟩
  · unfold setMode
    rw [(insert_file_spares bytes mode hnode).locate hlocate]
    simp [node?_insert_self hroot, insert_insert]
  · unfold replace
    rw [hlocate]
    simp [hplain]

/-- Steps that succeed replaced the file. -/
theorem replace_of_replaceThrough
    (h : store.replaceThrough temporary path bytes readOnly = (.ok (), after)) :
    store.replace path bytes (writtenMode readOnly) = .ok after := by
  unfold replaceThrough at h
  split at h
  · exact absurd (Prod.mk.inj h).1 (by simp)
  · rename_i staged hcreate
    obtain ⟨place, hlocate, hfree, rfl⟩ := create_eq_ok hcreate
    split at h
    · exact absurd (Prod.mk.inj h).1 (by simp)
    · rename_i moved hrename
      have hmoved := rename_eq_ok hlocate hfree hrename
      obtain ⟨-, rfl⟩ := Prod.mk.inj h
      cases readOnly with
      | false => exact hmoved
      | true =>
        obtain ⟨final, hmode, hfinal⟩ := setMode_of_replace readOnlyMode hmoved
        rw [if_pos rfl, hmode]
        exact hfinal

/-- Steps that fail changed nothing: a temporary file that was made is gone again. -/
theorem store_of_replaceThrough {fault : FileFault}
    (h : store.replaceThrough temporary path bytes readOnly = (.error fault, after)) :
    after = store := by
  unfold replaceThrough at h
  split at h
  · exact (Prod.mk.inj h).2.symm
  · rename_i staged hcreate
    obtain ⟨place, hlocate, hfree, rfl⟩ := create_eq_ok hcreate
    split at h
    · obtain ⟨-, rfl⟩ := Prod.mk.inj h
      have hspares := insert_file_spares bytes temporaryMode
        (show store.node? place ≠ some .directory by simp [hfree])
      unfold remove
      rw [hspares.locate hlocate]
      simp [node?_insert_self (ne_nil_of_node?_eq_none hfree), erase_insert hfree, afterTrying]
    · exact absurd (Prod.mk.inj h).1 (by simp)

/-- What can be replaced can be replaced through a temporary file at any free path. -/
theorem replaceThrough_of_replace (hfree : store.IsFree temporary)
    (h : store.replace path bytes (writtenMode readOnly) = .ok after) :
    store.replaceThrough temporary path bytes readOnly = (.ok (), after) := by
  obtain ⟨place, hlocate, hnone⟩ := hfree
  have hcreate : store.create temporary bytes =
      .ok (store.insert place (.file bytes temporaryMode)) := by
    simp [create, hlocate, hnone]
  obtain ⟨target, htarget, hnode, -⟩ := replace_eq_ok h
  have hstaged : store.replace path bytes temporaryMode =
      .ok (store.insert target (.file bytes temporaryMode)) := by
    simp [replace, htarget, any_isDirectory_eq_false hnode]
  have hrename := rename_of_replace hlocate hnone hstaged
  unfold replaceThrough
  rw [hcreate]
  simp only [hrename]
  cases readOnly with
  | false =>
    rw [← Except.ok.inj (hstaged.symm.trans h)]
    rfl
  | true =>
    obtain ⟨final, hmode, hfinal⟩ := setMode_of_replace readOnlyMode hstaged
    rw [Except.ok.inj (h.symm.trans hfinal)]
    simp [hmode, afterTrying]

/-! ## Writing -/

variable {name text : String} {outcome reported : Outcome}

/-- A replacement through a temporary file that is reported succeeded. -/
theorem replaced_of_replacedThrough
    (h : store.replacedThrough temporary path bytes readOnly reported = (.ok outcome, after)) :
    store.replaced path bytes (writtenMode readOnly) reported = (.ok outcome, after) := by
  unfold replacedThrough at h
  split at h
  · exact absurd (Prod.mk.inj h).1 (by simp)
  · rename_i hthrough
    unfold replaced
    rw [replace_of_replaceThrough hthrough]
    exact h

/-- A replacement through a temporary file that fails changes nothing. -/
theorem store_of_replacedThrough {fault : WriteFault}
    (h : store.replacedThrough temporary path bytes readOnly reported = (.error fault, after)) :
    after = store := by
  unfold replacedThrough at h
  split at h
  · rename_i hthrough
    exact (Prod.mk.inj h).2 ▸ store_of_replaceThrough hthrough
  · exact absurd (Prod.mk.inj h).1 (by simp)

/-- A replacement that is reported is reported through a temporary file as well. -/
theorem replacedThrough_of_replaced (hfree : store.IsFree temporary)
    (h : store.replaced path bytes (writtenMode readOnly) reported = (.ok outcome, after)) :
    store.replacedThrough temporary path bytes readOnly reported = (.ok outcome, after) := by
  obtain ⟨rfl, hreplace⟩ := replaced_eq_ok h
  unfold replacedThrough
  rw [replaceThrough_of_replace hfree hreplace]

/-- A write to a path, up to how the file is replaced. -/
def writeBy (replace : Store → Outcome → Except WriteFault Outcome × Store) (store : Store)
    (path text : String) : Except WriteFault Outcome × Store :=
  match store.ensureDirectory (folderOf path) with
  | (.error fault, changed) => (.error ⟨folderOf path, fault⟩, changed)
  | (.ok _, changed) =>
    match changed.read path with
    | .ok existing =>
      if existing.data = (normalize text).toUTF8.data then (.ok .upToDate, changed)
      else replace changed .replaced
    | .error .missing => replace changed .created
    | .error fault => (.error ⟨path, fault⟩, changed)

/-- The write itself replaces the file at once. -/
theorem write_eq_writeBy (store : Store) (readOnly : Bool) (path text : String) :
    store.write readOnly path text = writeBy (fun changed reported =>
      changed.replaced path (normalize text).toUTF8 (writtenMode readOnly) reported)
      store path text :=
  rfl

/-- A write through a temporary file. -/
theorem writeThrough_eq_writeBy (store : Store) (name : String) (readOnly : Bool)
    (path text : String) :
    store.writeThrough name readOnly path text = writeBy (fun changed reported =>
      changed.replacedThrough (Path.push (folderOf path) name) path (normalize text).toUTF8 readOnly
        reported) store path text :=
  rfl

/-- A write succeeds in the same way if the file is replaced in the same way. -/
theorem writeBy_of_writeBy {replace other : Store → Outcome → Except WriteFault Outcome × Store}
    (hreplace : ∀ reported,
      replace (store.ensureDirectory (folderOf path)).2 reported = (.ok outcome, after) →
        other (store.ensureDirectory (folderOf path)).2 reported = (.ok outcome, after))
    (h : writeBy replace store path text = (.ok outcome, after)) :
    writeBy other store path text = (.ok outcome, after) := by
  unfold writeBy at h ⊢
  rcases hensure : store.ensureDirectory (folderOf path) with ⟨fault | _, middle⟩
  · simp only [hensure] at h
    exact absurd (Prod.mk.inj h).1 (by simp)
  · simp only [hensure] at h hreplace ⊢
    split at h
    · split_ifs at h ⊢
      · exact h
      · exact hreplace .replaced h
    · exact hreplace .created h
    · exact absurd (Prod.mk.inj h).1 (by simp)

/-- A write through a temporary file that succeeds did what the write does. -/
theorem write_of_writeThrough
    (h : store.writeThrough name readOnly path text = (.ok outcome, after)) :
    store.write readOnly path text = (.ok outcome, after) := by
  rw [writeThrough_eq_writeBy] at h
  rw [write_eq_writeBy]
  exact writeBy_of_writeBy (fun reported => replaced_of_replacedThrough) h

/-- A write through a temporary file that fails has only made directories. -/
theorem store_of_writeThrough_error {fault : WriteFault}
    (h : store.writeThrough name readOnly path text = (.error fault, after)) :
    after = (store.ensureDirectory (folderOf path)).2 := by
  rw [writeThrough_eq_writeBy] at h
  unfold writeBy at h
  rcases hensure : store.ensureDirectory (folderOf path) with ⟨cause | _, middle⟩
  · simp only [hensure] at h
    exact (Prod.mk.inj h).2.symm
  · simp only [hensure] at h
    split at h
    · split_ifs at h
      · exact absurd (Prod.mk.inj h).1 (by simp)
      · exact store_of_replacedThrough h
    · exact store_of_replacedThrough h
    · exact (Prod.mk.inj h).2.symm

/-- A write that succeeds succeeds through a temporary file as well, if its path is free once the
directories are there. -/
theorem writeThrough_of_write
    (hfree : (store.ensureDirectory (folderOf path)).2.IsFree (Path.push (folderOf path) name))
    (h : store.write readOnly path text = (.ok outcome, after)) :
    store.writeThrough name readOnly path text = (.ok outcome, after) := by
  rw [write_eq_writeBy] at h
  rw [writeThrough_eq_writeBy]
  exact writeBy_of_writeBy (fun reported => replacedThrough_of_replaced hfree) h

end DsdlHeaders.Store
