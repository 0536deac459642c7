import Mathlib.Logic.Relation
import DsdlHeaders.Proofs.Store.Growth

/-!
# Directories and what is in them

Making directories along a path goes one directory at a time: `MakesOn` says what one step does,
and `ensureFor_makes` that nothing else happens. Everything here is proved for that step and then
for any number of steps.

* **New directories** are at places that the way along the path passes (`node?_of_makes`).
* **Trees** (`IsTree`) are the stores in which everything is in a directory. Writing leaves a tree
  (`IsTree.write`). In a tree nothing is beyond a missing directory, so a way that only goes down
  hides no file (`IsTree.not_hidesFile`).
-/

namespace DsdlHeaders.Store

/-! ## Making directories one at a time -/

/-- One directory is made on the way along some steps: where nothing is, in a directory that can be
reached. -/
def MakesOn (steps : List Path.Step) (before after : Store) : Prop :=
  ∃ front name outer, front ++ [.entry name] <+: steps ∧
    before.walk before.current front = .ok outer ∧ before.node? (outer ++ [name]) = none ∧
    after = before.insert (outer ++ [name]) .directory

/-- What is made on the beginning of a way is made on the way. -/
theorem MakesOn.mono {first second : List Path.Step} {before after : Store}
    (h : MakesOn first before after) (hsub : first <+: second) : MakesOn second before after := by
  obtain ⟨front, name, outer, hfront, hmade⟩ := h
  exact ⟨front, name, outer, hfront.trans hsub, hmade⟩

/-- A path that was located is usable. -/
theorem isUsable_of_locate_ok {store : Store} {path : String} {spot : Spot}
    (h : store.locate path = .ok spot) : IsUsable path := by
  have hne : path ≠ "" := by
    rintro rfl
    exact absurd h (by simp [locate])
  exact isUsable_of_locate store hne (by simp [h]) (by simp [h])

/-- What a located name is: a directory in reach and a name in it. -/
theorem exists_outer_of_locate {store : Store} {path : String} {place : Place}
    {asDirectory : Bool} (h : store.locate path = .ok (.entry place asDirectory)) :
    ∃ front name outer, Path.steps path = front ++ [.entry name] ∧
      store.walk store.current front = .ok outer ∧ place = outer ++ [name] := by
  rcases locate_cases (isUsable_of_locate_ok h) store with ⟨fault, hlocate, -⟩ |
    ⟨found, hlocate, -⟩ | ⟨outer, name, hlocate, houter, hsteps, -⟩
  · exact absurd (h.symm.trans hlocate) (by simp)
  · exact absurd (h.symm.trans hlocate) (by simp)
  · obtain ⟨rfl, -⟩ := Spot.entry.inj (Except.ok.inj (h.symm.trans hlocate))
    exact ⟨_, name, outer, hsteps, houter, rfl⟩

/-- Making a directory makes it on the way to it. -/
theorem makeDirectory_makes {store changed : Store} {path : String}
    (h : store.makeDirectory path = .ok changed) : MakesOn (Path.steps path) store changed := by
  unfold makeDirectory at h
  split at h
  · exact absurd h (by simp)
  · exact absurd h (by simp)
  · rename_i place _ hlocate
    split at h
    · exact absurd h (by simp)
    · rename_i hnode
      obtain rfl := Except.ok.inj h
      obtain ⟨front, name, outer, hsteps, houter, rfl⟩ := exists_outer_of_locate hlocate
      exact ⟨front, name, outer, hsteps ▸ List.prefix_refl _, houter, hnode, rfl⟩

/-- Making or keeping a directory makes at most that one. -/
theorem makeOrKeep_makes (store : Store) (path : String) :
    Relation.ReflTransGen (MakesOn (Path.steps path)) store (store.makeOrKeep path).2 := by
  unfold makeOrKeep
  split
  · rename_i hmade
    exact .single (makeDirectory_makes hmade)
  · split_ifs <;> exact .refl

/-- Making a directory with the missing ones around it makes them one by one, on the way to it. -/
theorem ensureFor_makes (fuel : Nat) (store : Store) (path : String) :
    Relation.ReflTransGen (MakesOn (Path.steps path)) store (ensureFor fuel store path).2 := by
  induction fuel generalizing path with
  | zero => exact .refl
  | succ fuel ih =>
    unfold ensureFor
    by_cases hempty : path = ""
    · rw [if_pos hempty]
    · rw [if_neg hempty]
      split
      · rename_i hmade
        exact .single (makeDirectory_makes hmade)
      · split
        · exact .refl
        · rename_i folder hparent
          obtain ⟨step, hsteps⟩ := Path.steps_of_parent? hparent
          have houter : Relation.ReflTransGen (MakesOn (Path.steps path)) store
              (ensureFor fuel store folder).2 :=
            (ih folder).lift id fun _ _ hmade => hmade.mono (hsteps ▸ List.prefix_append _ _)
          split
          · rename_i hensure
            rwa [hensure] at houter
          · rename_i hensure
            rw [hensure] at houter
            exact houter.trans (makeOrKeep_makes _ _)
      · split_ifs <;> exact .refl

/-- Directories that were made on a way are at places that the way passes. -/
theorem node?_of_makes {steps : List Path.Step} {before after : Store}
    (h : Relation.ReflTransGen (MakesOn steps) before after) :
    after.current = before.current ∧ ∀ place, after.node? place = some .directory →
      before.node? place = some .directory ∨
        ∃ front, front <+: steps ∧ place = Path.destination before.current front := by
  induction h with
  | refl => exact ⟨rfl, fun _ hplace => .inl hplace⟩
  | tail _ hstep ih =>
    obtain ⟨front, name, outer, hfront, houter, hnone, rfl⟩ := hstep
    obtain ⟨hcurrent, hdirectories⟩ := ih
    refine ⟨hcurrent, fun place hplace => ?_⟩
    by_cases hsame : place = outer ++ [name]
    · refine .inr ⟨front ++ [.entry name], hfront, ?_⟩
      rw [hsame, walk_eq_ok houter, hcurrent, Path.destination_append]
      rfl
    · rw [node?_insert_of_ne hsame] at hplace
      exact hdirectories place hplace

/-- A write that fails has only made directories. -/
theorem write_eq_error {store after : Store} {readOnly : Bool} {path text : String}
    {fault : WriteFault} (h : store.write readOnly path text = (.error fault, after)) :
    after = (store.ensureDirectory (folderOf path)).2 := by
  unfold write at h
  simp only at h
  split at h
  · rename_i hensure
    rw [hensure, (Prod.mk.inj h).2]
  · rename_i hensure
    rw [hensure]
    split at h
    · split_ifs at h
      · exact absurd (Prod.mk.inj h).1 (by simp)
      · exact replaced_eq_error h
    · exact replaced_eq_error h
    · exact (Prod.mk.inj h).2.symm

/-- A write makes directories on the way to the file and then puts at most a file where no directory
is. -/
theorem write_makes (store : Store) (readOnly : Bool) (path text : String) :
    ∃ middle, Relation.ReflTransGen (MakesOn (Path.steps (folderOf path))) store middle ∧
      ((store.write readOnly path text).2 = middle ∨
        ∃ place bytes mode, middle.locate path = .ok (.entry place false) ∧
          middle.node? place ≠ some .directory ∧
          (store.write readOnly path text).2 = middle.insert place (.file bytes mode)) := by
  have hmakes := ensureFor_makes ((folderOf path).length + 1) store (folderOf path)
  rcases hwrite : store.write readOnly path text with ⟨fault | outcome, after⟩
  · exact ⟨_, hmakes, .inl (write_eq_error hwrite)⟩
  · obtain ⟨middle, place, hensure, hlocate, hcases⟩ := write_eq_ok hwrite
    have hmiddle : (ensureFor ((folderOf path).length + 1) store (folderOf path)).2 = middle :=
      congrArg Prod.snd hensure
    refine ⟨middle, hmiddle ▸ hmakes, ?_⟩
    rcases hcases with ⟨-, rfl, -⟩ | ⟨-, ⟨old, mode, hnode, -⟩, hafter⟩ | ⟨-, hnode, hafter⟩
    · exact .inl rfl
    · exact .inr ⟨place, _, _, hlocate, by simp [hnode], hafter⟩
    · exact .inr ⟨place, _, _, hlocate, by simp [hnode], hafter⟩

/-- Directories that a write made are at places on the way to the directory of the file. -/
theorem node?_of_write {store : Store} {readOnly : Bool} {path text : String} {place : Place}
    (h : (store.write readOnly path text).2.node? place = some .directory) :
    store.node? place = some .directory ∨
      ∃ front, front <+: Path.steps (folderOf path) ∧
        place = Path.destination store.current front := by
  obtain ⟨middle, hmakes, hafter⟩ := write_makes store readOnly path text
  apply (node?_of_makes hmakes).2
  rcases hafter with hafter | ⟨target, bytes, mode, -, hdirectory, hafter⟩
  · exact hafter ▸ h
  · rw [hafter] at h
    by_cases hsame : place = target
    · rw [hsame, node?_insert_self (ne_nil_of_node?_ne hdirectory)] at h
      exact absurd h (by simp)
    · rwa [node?_insert_of_ne hsame] at h

/-! ## Trees -/

/-- Everything is in a directory, and so is the one that relative paths start from. -/
structure IsTree (store : Store) : Prop where
  current : store.node? store.current = some .directory
  enclosed : ∀ place name node, store.node? (place ++ [name]) = some node →
    store.node? place = some .directory

namespace IsTree

variable {store : Store}

/-- What encloses a directory is one. -/
theorem dropLast (h : IsTree store) {place : Place} (hplace : store.node? place = some .directory) :
    store.node? place.dropLast = some .directory := by
  rcases List.eq_nil_or_concat' place with rfl | ⟨outer, name, rfl⟩
  · exact hplace
  · rw [List.dropLast_concat]
    exact h.enclosed outer name _ hplace

/-- A walk through directories ends in a directory. -/
theorem walk (h : IsTree store) {start place : Place} {steps : List Path.Step}
    (hstart : store.node? start = some .directory) (hwalk : store.walk start steps = .ok place) :
    store.node? place = some .directory := by
  induction steps generalizing start with
  | nil =>
    obtain rfl := Except.ok.inj hwalk
    exact hstart
  | cons step steps ih =>
    cases step with
    | root => exact ih (by simp [node?]) hwalk
    | here => exact ih hstart hwalk
    | up => exact ih (h.dropLast hstart) hwalk
    | entry name =>
      simp only [Store.walk] at hwalk
      split_ifs at hwalk
      split at hwalk
      · exact absurd hwalk (by simp)
      · exact absurd hwalk (by simp)
      · rename_i hnode
        exact ih hnode hwalk

/-- A tree with one node more, in a directory and in place of no directory, is a tree. -/
theorem insert (h : IsTree store) {outer : Place} {name : String}
    (houter : store.node? outer = some .directory)
    (hplace : store.node? (outer ++ [name]) ≠ some .directory) (node : Node) :
    IsTree (store.insert (outer ++ [name]) node) := by
  have hkept : ∀ place, store.node? place = some .directory →
      (store.insert (outer ++ [name]) node).node? place = some .directory := by
    intro place hdirectory
    rw [node?_insert_of_ne _ node, hdirectory]
    rintro rfl
    exact hplace hdirectory
  refine ⟨hkept _ h.current, fun place other found hfound => ?_⟩
  by_cases hsame : place ++ [other] = outer ++ [name]
  · obtain ⟨rfl, -⟩ := List.append_inj' hsame rfl
    exact hkept _ houter
  · rw [node?_insert_of_ne hsame] at hfound
    exact hkept _ (h.enclosed place other found hfound)

/-- A directory that is made in a tree leaves a tree. -/
theorem makesOn (h : IsTree store) {steps : List Path.Step} {after : Store}
    (hmade : MakesOn steps store after) : IsTree after := by
  obtain ⟨front, name, outer, -, houter, hnone, rfl⟩ := hmade
  exact h.insert (h.walk h.current houter) (by simp [hnone]) _

/-- Making directories in a tree leaves a tree. -/
theorem makes (h : IsTree store) {steps : List Path.Step} {after : Store}
    (hmade : Relation.ReflTransGen (MakesOn steps) store after) : IsTree after := by
  induction hmade with
  | refl => exact h
  | tail _ hstep ih => exact ih.makesOn hstep

/-- Writing in a tree leaves a tree. -/
theorem write (h : IsTree store) (readOnly : Bool) (path text : String) :
    IsTree (store.write readOnly path text).2 := by
  obtain ⟨middle, hmakes, hafter⟩ := write_makes store readOnly path text
  have hmiddle := h.makes hmakes
  rcases hafter with hafter | ⟨place, bytes, mode, hlocate, hdirectory, hafter⟩
  · exact hafter ▸ hmiddle
  · obtain ⟨front, name, outer, -, houter, rfl⟩ := exists_outer_of_locate hlocate
    rw [hafter]
    exact hmiddle.insert (hmiddle.walk hmiddle.current houter) hdirectory _

/-- Below a place where nothing is there is nothing. -/
theorem node?_append_of_none (h : IsTree store) {place : Place} (hnone : store.node? place = none)
    (names : List String) : store.node? (place ++ names) = none := by
  induction names generalizing place with
  | nil => simpa using hnone
  | cons name names ih =>
    have hnext : store.node? (place ++ [name]) = none := by
      rcases hnode : store.node? (place ++ [name]) with _ | node
      · rfl
      · exact absurd (hnone.symm.trans (h.enclosed place name node hnode)) (by simp)
    simpa using ih hnext

/-- Where something is missing on the way down, there is no file on it. -/
theorem not_file_of_walk (h : IsTree store) {start : Place} {names : List String}
    (hstart : store.node? start = some .directory)
    (hwalk : store.walk start (names.map .entry) = .error .missing) {front : List String}
    (hfront : front <+: names) (bytes : ByteArray) (mode : Nat) :
    store.node? (start ++ front) ≠ some (.file bytes mode) := by
  induction names generalizing start front with
  | nil => exact absurd hwalk (by simp [Store.walk])
  | cons name names ih =>
    rcases front with _ | ⟨first, front⟩
    · simp [hstart]
    · obtain ⟨rfl, hlater⟩ := List.cons_prefix_cons.mp hfront
      simp only [List.map_cons, Store.walk] at hwalk
      split_ifs at hwalk
      · exact absurd hwalk (by simp)
      · have hplace : start ++ first :: front = (start ++ [first]) ++ front := by simp
        rw [hplace]
        split at hwalk
        · rename_i hnone
          rw [h.node?_append_of_none hnone]
          simp
        · exact absurd hwalk (by simp)
        · rename_i hnode
          exact ih hnode hwalk hlater

/-- In a tree a way from the root that only goes down hides no file. -/
theorem not_hidesFile (h : IsTree store) {path : String} {names : List String}
    (hsteps : Path.steps path = .root :: names.map .entry) : ¬ HidesFile store path := by
  rintro ⟨hmissing, front, bytes, mode, hfront, hnode⟩
  have hne : path ≠ "" := by
    rintro rfl
    exact absurd hsteps (by simp [Path.steps, Path.isAbsolute, Text.splitOn, Path.stepOf?])
  have husable := isUsable_of_locate store hne (by simp [hmissing]) (by simp [hmissing])
  have hwalk : store.walk [] (names.map .entry) = .error .missing := by
    rcases locate_cases husable store with ⟨fault, hlocate, hwalk⟩ | ⟨place, hlocate, -⟩ |
      ⟨outer, name, hlocate, -, -, -⟩
    · rw [hsteps, Store.walk] at hwalk
      rw [hwalk, Except.error.inj (hmissing.symm.trans hlocate)]
    · exact absurd (hmissing.symm.trans hlocate) (by simp)
    · exact absurd (hmissing.symm.trans hlocate) (by simp)
  rw [hsteps] at hfront
  rcases front with _ | ⟨step, front⟩
  · exact absurd (h.current.symm.trans hnode) (by simp)
  · obtain ⟨rfl, later, hlater⟩ := List.cons_prefix_cons.mp hfront
    obtain ⟨first, second, rfl, rfl, -⟩ := List.map_eq_append_iff.mp hlater.symm
    rw [Path.destination, Path.destination_entries] at hnode
    exact h.not_file_of_walk (by simp [node?]) hwalk (List.prefix_append _ _) bytes mode hnode

end IsTree

end DsdlHeaders.Store
