import DsdlHeaders.Proofs.Store.Enclosing
import DsdlHeaders.Proofs.Store.Frame

/-!
# Stores that grow

Writing removes nothing: what is a directory stays one, and where a file is a file stays, whatever
it holds. `Retains` says so of two stores. What was tried in vain in the first of them is still in
vain in the second, unless it only failed because something was missing.

* **Paths that stay closed** (`Retains.walk_error`, `Retains.locate_error`, `Retains.read_error`).
* **Usable paths** (`IsUsable`) mean something to a store. `locate_cases` says how the meaning of
  a path is found along its steps.
* **Refused directories** (`Refuses`) can never be made again (`Retains.refuses`). Making a
  directory with the missing ones around it succeeds, or leaves a store that refuses it
  (`ensureFor_refuses`). The reason can differ: a file on the way *exists* for the one who makes a
  directory in its place, and is *no directory* for the one who looks below it.
* **Writing again** what was written changes nothing (`write_of_read`), and writing again what
  could not be written fails again (`write_error_again`).
-/

namespace DsdlHeaders.Store

/-! ## Stores that grow -/

/-- Nothing is removed: directories stay directories, and files stay files, whatever they hold. -/
structure Retains (before after : Store) : Prop where
  current : after.current = before.current
  directories : ∀ place, before.node? place = some .directory →
    after.node? place = some .directory
  files : ∀ place bytes mode, before.node? place = some (.file bytes mode) →
    ∃ bytes mode, after.node? place = some (.file bytes mode)

namespace Retains

variable {before middle after : Store}

/-- Nothing happened. -/
theorem refl (store : Store) : Retains store store :=
  ⟨rfl, fun _ h => h, fun _ bytes mode h => ⟨bytes, mode, h⟩⟩

/-- One change after another. -/
theorem trans (h₁ : Retains before middle) (h₂ : Retains middle after) : Retains before after where
  current := h₂.current.trans h₁.current
  directories place h := h₂.directories place (h₁.directories place h)
  files place bytes mode h := by
    obtain ⟨bytes, mode, hmiddle⟩ := h₁.files place bytes mode h
    exact h₂.files place bytes mode hmiddle

/-- A change that may touch every file. -/
theorem spares (h : Retains before after) : SparesOutside Set.univ before after where
  current := h.current
  directories := h.directories
  files place hplace := absurd (Set.mem_univ place) hplace

/-- The way stays closed where more than a missing directory is in the way. -/
theorem walk_error (h : Retains before after) {start : Place} {steps : List Path.Step}
    {fault : FileFault} (hfault : fault ≠ .missing)
    (hwalk : before.walk start steps = .error fault) :
    after.walk start steps = .error fault := by
  induction steps generalizing start with
  | nil => exact absurd hwalk (by simp [walk])
  | cons step steps ih =>
    cases step with
    | root => exact ih hwalk
    | here => exact ih hwalk
    | up => exact ih hwalk
    | entry name =>
      simp only [walk] at hwalk ⊢
      split_ifs at hwalk ⊢ with hlong
      · exact hwalk
      · split at hwalk
        · exact absurd (Except.error.inj hwalk).symm hfault
        · rename_i bytes mode hnode
          obtain ⟨bytes, mode, hafter⟩ := h.files _ bytes mode hnode
          rw [hafter]
          exact hwalk
        · rename_i hnode
          rw [h.directories _ hnode]
          exact ih hwalk

/-- A path stays beyond reach where more than a missing directory is in the way. -/
theorem locate_error (h : Retains before after) {path : String} {fault : FileFault}
    (hfault : fault ≠ .missing) (hlocate : before.locate path = .error fault) :
    after.locate path = .error fault := by
  unfold locate at hlocate ⊢
  split_ifs at hlocate ⊢
  · exact hlocate
  · exact hlocate
  · exact hlocate
  · simp only [h.current] at hlocate ⊢
    split at hlocate
    · cases hfolder : before.walk before.current (Path.steps path).dropLast with
      | error found =>
        simp only [hfolder, bind, Except.bind, Except.error.injEq] at hlocate
        subst hlocate
        simp [h.walk_error hfault hfolder, bind, Except.bind]
      | ok folder =>
        rw [hfolder] at hlocate
        rw [h.spares.walk hfolder]
        exact hlocate
    · cases hfolder : before.walk before.current (Path.steps path) with
      | error found =>
        simp only [hfolder, bind, Except.bind, Except.error.injEq] at hlocate
        subst hlocate
        simp [h.walk_error hfault hfolder, bind, Except.bind]
      | ok folder => exact absurd hlocate (by simp [hfolder, bind, Except.bind])

/-- What cannot be read stays so, unless it is only missing. -/
theorem read_error (h : Retains before after) {path : String} {fault : FileFault}
    (hfault : fault ≠ .missing) (hread : before.read path = .error fault) :
    after.read path = .error fault := by
  unfold read at hread ⊢
  cases hlocate : before.locate path with
  | error found =>
    simp only [hlocate, Except.error.injEq] at hread
    subst hread
    simp [h.locate_error hfault hlocate]
  | ok spot =>
    rw [hlocate] at hread
    rw [h.spares.locate hlocate]
    cases spot with
    | directory place => exact hread
    | entry place asDirectory =>
      simp only at hread ⊢
      split at hread
      · exact absurd (Except.error.inj hread).symm hfault
      · rename_i hnode
        rw [h.directories _ hnode]
        exact hread
      · rename_i bytes mode hnode
        obtain ⟨bytes, mode, hafter⟩ := h.files _ bytes mode hnode
        rw [hafter]
        split_ifs at hread ⊢ with hslash
        exact hread

/-- A directory stays one. -/
theorem isDirectory (h : Retains before after) {path : String}
    (hpath : before.isDirectory path = true) : after.isDirectory path = true := by
  unfold Store.isDirectory at hpath ⊢
  cases hlocate : before.locate path with
  | error fault => exact absurd hpath (by simp [hlocate])
  | ok spot =>
    rw [hlocate] at hpath
    rw [h.spares.locate hlocate]
    cases spot with
    | directory place => rfl
    | entry place asDirectory =>
      rcases hnode : before.node? place with _ | _ | ⟨bytes, mode⟩
      · exact absurd hpath (by simp [hnode])
      · simp [h.directories place hnode, Node.isDirectory]
      · exact absurd hpath (by simp [hnode, Node.isDirectory])

end Retains

/-- A change that touches no file removes nothing. -/
theorem SparesOutside.retains {before after : Store} (h : SparesOutside ∅ before after) :
    Retains before after where
  current := h.current
  directories := h.directories
  files place bytes mode hnode :=
    ⟨bytes, mode, (h.files place (Set.notMem_empty place) bytes mode).mpr hnode⟩

/-- A change that touches one file and leaves a file there removes nothing. -/
theorem SparesOutside.retains_of_file {before after : Store} {place : Place} {bytes : ByteArray}
    {mode : Nat} (h : SparesOutside {place} before after)
    (hfile : after.node? place = some (.file bytes mode)) : Retains before after where
  current := h.current
  directories := h.directories
  files other bytes' mode' hnode := by
    by_cases hother : other = place
    · exact ⟨bytes, mode, hother ▸ hfile⟩
    · exact ⟨bytes', mode', (h.files other hother bytes' mode').mpr hnode⟩

/-! ## Usable paths -/

/-- A path that means something to a store. -/
structure IsUsable (path : String) : Prop where
  noNul : '\x00' ∉ path.toList
  ne_empty : path ≠ ""
  short : path.utf8ByteSize ≤ maxPathBytes

/-- The beginning of a usable path is usable. -/
theorem IsUsable.of_prefix {path folder : String} (h : IsUsable path) (hne : folder ≠ "")
    (hfolder : folder.toList <+: path.toList) : IsUsable folder where
  noNul hmem := h.noNul (hfolder.subset hmem)
  ne_empty := hne
  short := by
    obtain ⟨rest, hrest⟩ := hfolder
    have hpath : path = folder ++ String.ofList rest := by
      apply String.ext
      simp [hrest]
    have hshort := h.short
    rw [hpath, String.utf8ByteSize_append] at hshort
    omega

/-- What encloses a usable path is usable. -/
theorem IsUsable.of_parent? {path folder : String} (h : IsUsable path) (htidy : Path.IsTidy path)
    (hparent : Path.parent? path = some folder) : IsUsable folder :=
  h.of_prefix (Path.IsTidy.of_parent? hparent htidy.absolute).ne_empty
    (Path.prefix_of_parent? hparent).1

/-- One way after another. -/
theorem walk_append (store : Store) (start : Place) (first second : List Path.Step) :
    store.walk start (first ++ second) =
      store.walk start first >>= fun place => store.walk place second := by
  induction first generalizing start with
  | nil => rfl
  | cons step first ih =>
    cases step with
    | root => exact ih _
    | here => exact ih _
    | up => exact ih _
    | entry name =>
      simp only [List.cons_append, walk]
      split_ifs with hlong
      · rfl
      · split
        · rfl
        · rfl
        · exact ih _

/-- The way is closed as soon as its beginning is. -/
theorem walk_append_error {store : Store} {start : Place} {first : List Path.Step}
    {fault : FileFault} (h : store.walk start first = .error fault) (second : List Path.Step) :
    store.walk start (first ++ second) = .error fault := by
  rw [walk_append, h]
  rfl

/-- What a usable path means is found along its steps: the way is closed, or it ends in a
directory, or it leads to a name in a directory. -/
theorem locate_cases {path : String} (h : IsUsable path) (store : Store) :
    (∃ fault, store.locate path = .error fault ∧
      store.walk store.current (Path.steps path) = .error fault) ∨
    (∃ place, store.locate path = .ok (.directory place) ∧
      store.walk store.current (Path.steps path) = .ok place) ∨
    (∃ outer name,
      store.locate path = .ok (.entry (outer ++ [name]) (path.toList.getLast? = some '/')) ∧
      store.walk store.current (Path.steps path).dropLast = .ok outer ∧
      Path.steps path = (Path.steps path).dropLast ++ [.entry name] ∧
      name.utf8ByteSize ≤ maxNameBytes) := by
  have hlong : ¬ maxPathBytes < path.utf8ByteSize := Nat.not_lt.mpr h.short
  have hnul : ¬ path.toList.contains '\x00' = true := by simpa using h.noNul
  unfold locate
  rw [if_neg hnul, if_neg h.ne_empty, if_neg hlong]
  simp only
  split
  · rename_i name hlast _
    obtain ⟨front, hsteps⟩ := List.getLast?_eq_some_iff.mp hlast
    rw [hsteps, List.dropLast_concat]
    rcases hfolder : store.walk store.current front with fault | outer
    · exact .inl ⟨fault, rfl, walk_append_error hfolder _⟩
    · rcases Nat.lt_or_ge maxNameBytes name.utf8ByteSize with hname | hname
      · refine .inl ⟨.nameTooLong, ?_, ?_⟩
        · simp [bind, Except.bind, hname]
        · rw [walk_append, hfolder]
          simp [bind, Except.bind, walk, hname]
      · refine .inr (.inr ⟨outer, name, ?_, rfl, rfl, hname⟩)
        simp only [bind, Except.bind, if_neg (Nat.not_lt.mpr hname)]
  · rcases hfolder : store.walk store.current (Path.steps path) with fault | place
    · exact .inl ⟨fault, rfl, rfl⟩
    · exact .inr (.inl ⟨place, rfl, rfl⟩)

/-- A usable path means a directory if it can be walked to its end. -/
theorem isDirectory_iff {store : Store} {path : String} (h : IsUsable path) :
    store.isDirectory path = true ↔
      ∃ place, store.walk store.current (Path.steps path) = .ok place := by
  unfold isDirectory
  rcases locate_cases h store with ⟨fault, hlocate, hwalk⟩ | ⟨place, hlocate, hwalk⟩ |
    ⟨outer, name, hlocate, houter, hsteps, hname⟩
  · simp [hlocate, hwalk]
  · simp [hlocate, hwalk]
  · rw [hlocate, hsteps, walk_append, houter]
    rcases hnode : store.node? (outer ++ [name]) with _ | _ | ⟨bytes, mode⟩ <;>
      simp [bind, Except.bind, walk, Nat.not_lt.mpr hname, hnode, Node.isDirectory]

/-! ## Making directories that are there -/

/-- A directory that is there cannot be made. -/
theorem makeDirectory_of_isDirectory {store : Store} {path : String}
    (h : store.isDirectory path = true) : store.makeDirectory path = .error .alreadyExists := by
  unfold isDirectory at h
  unfold makeDirectory
  split at h
  · rename_i hlocate
    rw [hlocate]
  · rename_i place _ hlocate
    rw [hlocate]
    rcases hnode : store.node? place with _ | node
    · exact absurd h (by simp [hnode])
    · simp only [hnode]
  · exact absurd h (by simp)

/-- A directory that was just made is there. -/
theorem isDirectory_of_makeDirectory {store changed : Store} {path : String}
    (h : store.makeDirectory path = .ok changed) : changed.isDirectory path = true := by
  have hspares := makeDirectory_spares h
  unfold makeDirectory at h
  split at h
  · exact absurd h (by simp)
  · exact absurd h (by simp)
  · rename_i place _ hlocate
    split at h
    · exact absurd h (by simp)
    · rename_i hnode
      obtain rfl := Except.ok.inj h
      have hroot : place ≠ [] :=
        ne_nil_of_node?_ne (show store.node? place ≠ some .directory by simp [hnode])
      unfold isDirectory
      rw [hspares.locate hlocate]
      simp [node?_insert_self hroot, Node.isDirectory]

/-- Making or keeping a directory leaves a directory there, if it succeeds. -/
theorem isDirectory_of_makeOrKeep {store after : Store} {path : String}
    (h : store.makeOrKeep path = (.ok (), after)) : after.isDirectory path = true := by
  unfold makeOrKeep at h
  split at h
  · rename_i hmade
    obtain ⟨-, rfl⟩ := Prod.mk.inj h
    exact isDirectory_of_makeDirectory hmade
  · split_ifs at h with hthere
    · obtain ⟨-, rfl⟩ := Prod.mk.inj h
      exact hthere
    · exact absurd (Prod.mk.inj h).1 (by simp)

/-- Nothing has to be made around a directory that is there. -/
theorem ensureDirectory_of_isDirectory {store : Store} {path : String}
    (h : store.isDirectory path = true) : store.ensureDirectory path = (.ok (), store) := by
  unfold ensureDirectory ensureFor
  split_ifs with hempty
  · rfl
  · rw [makeDirectory_of_isDirectory h]

/-- A directory is there once it was made with the missing ones around it. -/
theorem isDirectory_of_ensureFor {fuel : Nat} {store after : Store} {path : String}
    (hne : path ≠ "") (h : ensureFor fuel store path = (.ok (), after)) :
    after.isDirectory path = true := by
  cases fuel with
  | zero => exact absurd (Prod.mk.inj h).1 (by simp)
  | succ fuel =>
    unfold ensureFor at h
    rw [if_neg hne] at h
    split at h
    · rename_i hmade
      obtain ⟨-, rfl⟩ := Prod.mk.inj h
      exact isDirectory_of_makeDirectory hmade
    · split at h
      · exact absurd (Prod.mk.inj h).1 (by simp)
      · split at h
        · exact absurd (Prod.mk.inj h).1 (by simp)
        · exact isDirectory_of_makeOrKeep h
    · split_ifs at h with hthere
      · obtain ⟨-, rfl⟩ := Prod.mk.inj h
        exact hthere
      · exact absurd (Prod.mk.inj h).1 (by simp)

/-! ## Refused directories -/

/-- A directory cannot be made, for more than the lack of another one. -/
structure Refuses (store : Store) (path : String) (fault : FileFault) : Prop where
  made : store.makeDirectory path = .error fault
  lasting : fault ≠ .missing
  absent : store.isDirectory path = false

/-- What stands in the way of a refused directory: the way to it is closed, or a file is in its
place. -/
theorem Refuses.cases {store : Store} {path : String} {fault : FileFault}
    (h : Refuses store path fault) : store.locate path = .error fault ∨
      (fault = .alreadyExists ∧ ∃ place asDirectory bytes mode,
        store.locate path = .ok (.entry place asDirectory) ∧
        store.node? place = some (.file bytes mode)) := by
  obtain ⟨hmade, -, habsent⟩ := h
  unfold makeDirectory at hmade
  unfold isDirectory at habsent
  rcases hlocate : store.locate path with found | ⟨place⟩ | ⟨place, asDirectory⟩
  · rw [hlocate] at hmade
    exact .inl (congrArg Except.error (Except.error.inj hmade))
  · exact absurd habsent (by simp [hlocate])
  · rw [hlocate] at hmade habsent
    rcases hnode : store.node? place with _ | _ | ⟨bytes, mode⟩
    · exact absurd hmade (by simp [hnode])
    · exact absurd habsent (by simp [hnode, Node.isDirectory])
    · simp only [hnode, Except.error.injEq] at hmade
      exact .inr ⟨hmade.symm, place, asDirectory, bytes, mode, rfl, hnode⟩

/-- A path beyond reach is refused. -/
theorem refuses_of_locate {store : Store} {path : String} {fault : FileFault}
    (hfault : fault ≠ .missing) (h : store.locate path = .error fault) :
    Refuses store path fault := by
  refine ⟨?_, hfault, ?_⟩
  · unfold makeDirectory
    rw [h]
  · unfold isDirectory
    rw [h]

/-- A directory that is refused stays refused. -/
theorem Retains.refuses {before after : Store} (h : Retains before after) {path : String}
    {fault : FileFault} (hrefuses : Refuses before path fault) : Refuses after path fault := by
  rcases hrefuses.cases with hlocate | ⟨rfl, place, asDirectory, bytes, mode, hlocate, hnode⟩
  · exact refuses_of_locate hrefuses.lasting (h.locate_error hrefuses.lasting hlocate)
  · obtain ⟨bytes, mode, hafter⟩ := h.files place bytes mode hnode
    have hthere := h.spares.locate hlocate
    exact ⟨by simp [makeDirectory, hthere, hafter], by simp,
      by simp [Store.isDirectory, hthere, hafter, Node.isDirectory]⟩

/-- What is refused is refused at once. -/
theorem Refuses.ensureDirectory {store : Store} {path : String} {fault : FileFault}
    (h : Refuses store path fault) : store.ensureDirectory path = (.error fault, store) := by
  have hne : path ≠ "" := by
    rintro rfl
    exact h.lasting (Except.error.inj h.made).symm
  unfold Store.ensureDirectory ensureFor
  rw [if_neg hne, h.made]
  split
  · rename_i hmade
    exact absurd hmade (by simp)
  · rename_i hmade
    exact absurd (Except.error.inj hmade) h.lasting
  · rename_i hmade
    rw [h.absent, if_neg (by simp), Except.error.inj hmade]

/-- The way below a refused directory is closed, for the same reason or because of the file that is
in its place. -/
theorem Refuses.walk {store : Store} {path : String} {fault : FileFault}
    (h : Refuses store path fault) (husable : IsUsable path) :
    store.walk store.current (Path.steps path) = .error fault ∨
      (fault = .alreadyExists ∧
        store.walk store.current (Path.steps path) = .error .notDirectory ∧
        ∃ bytes mode, store.node? (Path.destination store.current (Path.steps path)) =
          some (.file bytes mode)) := by
  rcases h.cases with hclosed | ⟨rfl, place, asDirectory, bytes, mode, hthere, hnode⟩
  · rcases locate_cases husable store with ⟨found, hlocate, hwalk⟩ | ⟨place, hlocate, -⟩ |
      ⟨outer, name, hlocate, -, -, -⟩
    · rw [hwalk, Except.error.inj (hlocate.symm.trans hclosed)]
      exact .inl rfl
    · exact absurd (hlocate.symm.trans hclosed) (by simp)
    · exact absurd (hlocate.symm.trans hclosed) (by simp)
  · rcases locate_cases husable store with ⟨found, hlocate, -⟩ | ⟨place, hlocate, -⟩ |
      ⟨outer, name, hlocate, houter, hsteps, hname⟩
    · exact absurd (hlocate.symm.trans hthere) (by simp)
    · exact absurd (hlocate.symm.trans hthere) (by simp)
    · obtain ⟨rfl, -⟩ := Spot.entry.inj (Except.ok.inj (hlocate.symm.trans hthere))
      refine .inr ⟨rfl, ?_, bytes, mode, locate_eq_ok hthere ▸ hnode⟩
      rw [hsteps, walk_append, houter]
      simp [bind, Except.bind, Store.walk, Nat.not_lt.mpr hname, hnode]

/-- Below a way that is closed a directory is refused. -/
theorem refuses_of_walk {store : Store} {path folder : String} {fault : FileFault}
    (hfault : fault ≠ .missing) (husable : IsUsable path)
    (hparent : Path.parent? path = some folder)
    (h : store.walk store.current (Path.steps folder) = .error fault) :
    Refuses store path fault := by
  obtain ⟨step, hsteps⟩ := Path.steps_of_parent? hparent
  have hwalk := walk_append_error h [step]
  rw [← hsteps] at hwalk
  apply refuses_of_locate hfault
  rcases locate_cases husable store with ⟨found, hlocate, hfound⟩ | ⟨place, -, hplace⟩ |
    ⟨outer, name, -, houter, -, -⟩
  · rw [hlocate, Except.error.inj (hwalk.symm.trans hfound)]
  · exact absurd (hwalk.symm.trans hplace) (by simp)
  · rw [hsteps, List.dropLast_concat] at houter
    exact absurd (h.symm.trans houter) (by simp)

/-- Below a refused directory every other one is refused, for the same reason or because of the file
that is in the place of the first. -/
theorem Refuses.below {store : Store} {path folder : String} {fault : FileFault}
    (h : Refuses store folder fault) (hfolder : IsUsable folder) (husable : IsUsable path)
    (hparent : Path.parent? path = some folder) :
    ∃ later, Refuses store path later ∧ (later = fault ∨
      (fault = .alreadyExists ∧ later = .notDirectory ∧
        ∃ bytes mode, store.node? (Path.destination store.current (Path.steps folder)) =
          some (.file bytes mode))) := by
  rcases h.walk hfolder with hclosed | ⟨rfl, hclosed, hfile⟩
  · exact ⟨fault, refuses_of_walk h.lasting husable hparent hclosed, .inl rfl⟩
  · exact ⟨.notDirectory, refuses_of_walk (by simp) husable hparent hclosed, .inr ⟨rfl, rfl, hfile⟩⟩

/-- The root is always in reach. -/
theorem locate_root (store : Store) : store.locate "/" = .ok (.directory []) := by
  have hsteps : Path.steps "/" = [.root] := by decide
  have hdot : endsInDot "/" = false := by decide
  unfold locate
  rw [if_neg (by decide), if_neg (by decide), if_neg (by decide), hsteps, hdot]
  rfl

/-- A directory that cannot be made for the lack of another one is out of reach. -/
theorem locate_of_makeDirectory_missing {store : Store} {path : String}
    (h : store.makeDirectory path = .error .missing) : store.locate path = .error .missing := by
  unfold makeDirectory at h
  split at h
  · rename_i hlocate
    rw [hlocate, Except.error.inj h]
  · exact absurd h (by simp)
  · split at h
    · exact absurd h (by simp)
    · exact absurd h (by simp)

/-- A path is usable if the store finds no fault with the path itself. -/
theorem isUsable_of_locate (store : Store) {path : String} (hne : path ≠ "")
    (hnul : store.locate path ≠ .error .containsNul)
    (hlong : store.locate path ≠ .error .nameTooLong) : IsUsable path := by
  unfold locate at hnul hlong
  split_ifs at hnul hlong with hcontains hbytes
  · exact absurd rfl hnul
  · exact absurd rfl hlong
  · exact ⟨by simpa using hcontains, hne, Nat.not_lt.mp hbytes⟩

/-- Nothing is missing on the way to a name in a directory that is there. -/
theorem locate_ne_missing {store : Store} {path folder : String} (htidy : Path.IsTidy path)
    (husable : IsUsable path) (hparent : Path.parent? path = some folder)
    (h : store.isDirectory folder = true) : store.locate path ≠ .error .missing := by
  have hfolder := husable.of_parent? htidy hparent
  have hlong : ¬ maxPathBytes < path.utf8ByteSize := Nat.not_lt.mpr husable.short
  have hnul : ¬ path.toList.contains '\x00' = true := by simpa using husable.noNul
  obtain ⟨step, hsteps⟩ := Path.steps_of_parent? hparent
  obtain ⟨place, hplace⟩ := (isDirectory_iff hfolder).mp h
  unfold locate
  rw [if_neg hnul, if_neg husable.ne_empty, if_neg hlong, htidy.endsInDot]
  simp only [hsteps, List.getLast?_concat, List.dropLast_concat, walk_append, hplace]
  cases step with
  | entry name =>
    simp only [bind, Except.bind]
    split_ifs <;> simp
  | root => simp [bind, Except.bind, walk]
  | here => simp [bind, Except.bind, walk]
  | up => simp [bind, Except.bind, walk]

/-- Making or keeping a directory that nothing is missing for fails only if the store refuses it. -/
theorem makeOrKeep_eq_error {store after : Store} {path : String} {fault : FileFault}
    (h : store.makeOrKeep path = (.error fault, after))
    (hlocate : store.locate path ≠ .error .missing) : after = store ∧ Refuses store path fault := by
  unfold makeOrKeep at h
  split at h
  · exact absurd (Prod.mk.inj h).1 (by simp)
  · rename_i found hmade
    split_ifs at h with hthere
    · exact absurd (Prod.mk.inj h).1 (by simp)
    · obtain ⟨hfault, rfl⟩ := Prod.mk.inj h
      obtain rfl := Except.error.inj hfault
      refine ⟨rfl, hmade, ?_, by simpa using hthere⟩
      rintro rfl
      exact hlocate (locate_of_makeDirectory_missing hmade)

/-- Something is missing on the way along a path, and yet there is a file in one of the places that
the way passes. -/
structure HidesFile (store : Store) (path : String) : Prop where
  missing : store.locate path = .error .missing
  file : ∃ front bytes mode, front <+: Path.steps path ∧
    store.node? (Path.destination store.current front) = some (.file bytes mode)

/-- A directory that could not be made in one store is refused by a later one. The reason is the
same, unless a file was found by a way that was not open before. -/
def RefusesLater (before after : Store) (path : String) (fault : FileFault) : Prop :=
  ∃ later, Refuses after path later ∧ (later = fault ∨
    (fault = .alreadyExists ∧ later = .notDirectory ∧ HidesFile before path))

/-- Below a directory that is refused later, one that is out of reach is refused later too. -/
theorem RefusesLater.below {before after : Store} {path folder : String} {fault : FileFault}
    (h : RefusesLater before after folder fault) (hspares : SparesOutside ∅ before after)
    (hmissing : before.locate path = .error .missing) (hfolder : IsUsable folder)
    (husable : IsUsable path) (hparent : Path.parent? path = some folder) :
    RefusesLater before after path fault := by
  obtain ⟨first, hfirst, hfirstFault⟩ := h
  obtain ⟨later, hlater, hlaterFault⟩ := hfirst.below hfolder husable hparent
  obtain ⟨step, hsteps⟩ := Path.steps_of_parent? hparent
  refine ⟨later, hlater, ?_⟩
  rcases hfirstFault with rfl | ⟨rfl, rfl, -, front, bytes, mode, hfront, hnode⟩
  · rcases hlaterFault with rfl | ⟨rfl, rfl, bytes, mode, hnode⟩
    · exact .inl rfl
    · refine .inr ⟨rfl, rfl, hmissing, Path.steps folder, bytes, mode, ?_, ?_⟩
      · exact hsteps ▸ List.prefix_append _ _
      · rw [hspares.current] at hnode
        exact (hspares.files _ (Set.notMem_empty _) _ _).mp hnode
  · -- a directory that is none for one below it is none for the next one either
    rcases hlaterFault with rfl | ⟨hfault, -⟩
    · refine .inr ⟨rfl, rfl, hmissing, front, bytes, mode, ?_, hnode⟩
      exact hsteps ▸ List.prefix_append_of_prefix hfront
    · exact absurd hfault (by simp)

/-- Making a directory with the missing ones around it fails only if the store refuses it from then
on. -/
theorem ensureFor_refuses {fuel : Nat} {store after : Store} {path : String} {fault : FileFault}
    (htidy : Path.IsTidy path) (hfuel : path.length < fuel)
    (h : ensureFor fuel store path = (.error fault, after)) :
    RefusesLater store after path fault := by
  induction fuel generalizing path after with
  | zero => exact absurd hfuel (Nat.not_lt_zero _)
  | succ fuel ih =>
    have hne : path ≠ "" := htidy.ne_empty
    unfold ensureFor at h
    rw [if_neg hne] at h
    split at h
    · exact absurd (Prod.mk.inj h).1 (by simp)
    · -- something is missing on the way, so what encloses the path comes first
      rename_i hmade
      have hmissing := locate_of_makeDirectory_missing hmade
      have husable := isUsable_of_locate store hne (by simp [hmissing]) (by simp [hmissing])
      split at h
      · rename_i hparent
        have hroot : path = "/" := String.ext (htidy.eq_root hparent)
        subst hroot
        exact absurd (hmissing.symm.trans (locate_root store)) (by simp)
      · rename_i folder hparent
        have hfolder := Path.IsTidy.of_parent? hparent htidy.absolute
        split at h
        · rename_i found changed houter
          obtain ⟨hfault, rfl⟩ := Prod.mk.inj h
          obtain rfl := Except.error.inj hfault
          have hspares := ensureFor_spares fuel store folder
          rw [houter] at hspares
          have hshorter : folder.length < fuel := by
            have hprefix := (Path.prefix_of_parent? hparent).2
            simp only [String.length_toList] at hprefix
            omega
          exact (ih hfolder hshorter houter).below hspares hmissing
            (husable.of_parent? htidy hparent) husable hparent
        · rename_i changed houter
          have hthere := isDirectory_of_ensureFor hfolder.ne_empty houter
          obtain ⟨rfl, hrefuses⟩ := makeOrKeep_eq_error h
            (locate_ne_missing htidy husable hparent hthere)
          exact ⟨fault, hrefuses, .inl rfl⟩
    · rename_i found hlasting hmade
      split_ifs at h with hthere
      · exact absurd (Prod.mk.inj h).1 (by simp)
      · obtain ⟨hfault, rfl⟩ := Prod.mk.inj h
        obtain rfl := Except.error.inj hfault
        have hpresent : found ≠ .missing := fun hfound => hlasting (hfound ▸ rfl)
        exact ⟨found, ⟨hmade, hpresent, by simpa using hthere⟩, .inl rfl⟩

/-! ## Writing -/

/-- A write removes nothing. -/
theorem write_retains (store : Store) (readOnly : Bool) (path text : String) :
    Retains store (store.write readOnly path text).2 := by
  rcases hwrite : store.write readOnly path text with ⟨fault | outcome, after⟩
  · exact (write_error_spares hwrite).retains
  · obtain ⟨place, mode, -, hnode, hspares⟩ := write_ok_spares hwrite
    exact hspares.retains_of_file hnode

/-- The directory of a tidy path is what encloses it. -/
theorem folderOf_eq {path folder : String} (htidy : Path.IsTidy path)
    (hparent : Path.parent? path = some folder) : folderOf path = folder := by
  have hne : folder ≠ "" := (Path.IsTidy.of_parent? hparent htidy.absolute).ne_empty
  unfold folderOf
  rw [hparent]
  split
  · rename_i hempty
    exact absurd (Option.some.inj hempty) hne
  · rename_i hfolder
    exact (Option.some.inj hfolder).symm
  · rename_i hnone
    exact absurd hnone (by simp)

/-- Where a file can be read there is a directory around it. -/
theorem isDirectory_of_read {store : Store} {path folder : String} {bytes : ByteArray}
    (htidy : Path.IsTidy path) (hparent : Path.parent? path = some folder)
    (h : store.read path = .ok bytes) : store.isDirectory folder = true := by
  obtain ⟨place, mode, hlocate, hnode⟩ := read_eq_ok h
  have husable := isUsable_of_locate store htidy.ne_empty (by simp [hlocate]) (by simp [hlocate])
  have hfolder := husable.of_parent? htidy hparent
  obtain ⟨step, hsteps⟩ := Path.steps_of_parent? hparent
  rw [isDirectory_iff hfolder]
  rcases locate_cases husable store with ⟨fault, hclosed, -⟩ | ⟨place, hclosed, -⟩ |
    ⟨outer, name, -, houter, -, -⟩
  · exact absurd (hlocate.symm.trans hclosed) (by simp)
  · exact absurd (hlocate.symm.trans hclosed) (by simp)
  · rw [hsteps, List.dropLast_concat] at houter
    exact ⟨outer, houter⟩

/-- A file that holds a text already is left alone. -/
theorem write_of_read {store : Store} {path folder text : String} (readOnly : Bool)
    (htidy : Path.IsTidy path) (hparent : Path.parent? path = some folder)
    (h : store.read path = .ok (normalize text).toUTF8) :
    store.write readOnly path text = (.ok .upToDate, store) := by
  have hfolder := ensureDirectory_of_isDirectory (isDirectory_of_read htidy hparent h)
  unfold write
  simp only [folderOf_eq htidy hparent, hfolder, h, if_pos]

/-- A file that can be read can be replaced. -/
theorem replaced_ne_error_of_read {store after : Store} {path : String} {old bytes : ByteArray}
    {mode : Nat} {outcome : Outcome} {fault : WriteFault} (h : store.read path = .ok old) :
    store.replaced path bytes mode outcome ≠ (.error fault, after) := by
  obtain ⟨place, found, hlocate, hnode⟩ := read_eq_ok h
  simp [replaced, replace, hlocate, hnode, Node.isDirectory]

/-- A file that is missing in a directory can be made. -/
theorem replaced_ne_error_of_missing {store after : Store} {path folder : String}
    {bytes : ByteArray} {mode : Nat} {outcome : Outcome} {fault : WriteFault}
    (htidy : Path.IsTidy path) (hparent : Path.parent? path = some folder)
    (hfolder : store.isDirectory folder = true) (h : store.read path = .error .missing) :
    store.replaced path bytes mode outcome ≠ (.error fault, after) := by
  have husable : IsUsable path := by
    refine isUsable_of_locate store htidy.ne_empty ?_ ?_ <;>
      (intro hlocate; exact absurd h (by simp [read, hlocate]))
  unfold read at h
  rcases locate_cases husable store with ⟨found, hlocate, -⟩ | ⟨place, hlocate, -⟩ |
    ⟨outer, name, hlocate, -, -, -⟩
  · rw [hlocate] at h
    rw [Except.error.inj h] at hlocate
    exact absurd hlocate (locate_ne_missing htidy husable hparent hfolder)
  · exact absurd h (by simp [hlocate])
  · rw [decide_eq_false (htidy.getLast?_ne hparent)] at hlocate
    rcases hnode : store.node? (outer ++ [name]) with _ | _ | ⟨old, found⟩
    · simp [replaced, replace, hlocate, hnode]
    · exact absurd h (by simp [hlocate, hnode])
    · exact absurd h (by simp [hlocate, hnode])

/-- What could not be written cannot be written later. The reason is the same, unless a file was
found in place of a directory by a way that was not open before. -/
theorem write_error_again {store after final : Store} {path folder text : String}
    {readOnly : Bool} {fault : WriteFault} (htidy : Path.IsTidy path)
    (hparent : Path.parent? path = some folder)
    (h : store.write readOnly path text = (.error fault, after)) (hlater : Retains after final) :
    ∃ later, final.write readOnly path text = (.error later, final) ∧ (later = fault ∨
      (fault = ⟨folder, .alreadyExists⟩ ∧ later = ⟨folder, .notDirectory⟩ ∧
        HidesFile store folder)) := by
  have hfolder := Path.IsTidy.of_parent? hparent htidy.absolute
  unfold write at h
  simp only [folderOf_eq htidy hparent] at h
  split at h
  · rename_i found changed hensure
    obtain ⟨hfault, rfl⟩ := Prod.mk.inj h
    obtain rfl := Except.error.inj hfault
    obtain ⟨later, hrefuses, hsame⟩ := ensureFor_refuses hfolder (Nat.lt_succ_self _) hensure
    refine ⟨⟨folder, later⟩, ?_, ?_⟩
    · unfold write
      simp only [folderOf_eq htidy hparent, (hlater.refuses hrefuses).ensureDirectory]
    · rcases hsame with rfl | ⟨rfl, rfl, hhides⟩
      · exact .inl rfl
      · exact .inr ⟨rfl, rfl, hhides⟩
  · rename_i changed hensure
    have hthere := isDirectory_of_ensureFor hfolder.ne_empty hensure
    split at h
    · rename_i existing hread
      split_ifs at h with hsame
      · exact absurd (Prod.mk.inj h).1 (by simp)
      · exact absurd h (replaced_ne_error_of_read hread)
    · rename_i hread
      exact absurd h (replaced_ne_error_of_missing htidy hparent hthere hread)
    · rename_i found hlasting hread
      obtain ⟨hfault, rfl⟩ := Prod.mk.inj h
      obtain rfl := Except.error.inj hfault
      refine ⟨⟨path, found⟩, ?_, .inl rfl⟩
      have hagain := hlater.read_error (fun hfound => hlasting (hfound ▸ rfl)) hread
      have hkept := ensureDirectory_of_isDirectory (hlater.isDirectory hthere)
      unfold write
      simp only [folderOf_eq htidy hparent, hkept, hagain]

end DsdlHeaders.Store
