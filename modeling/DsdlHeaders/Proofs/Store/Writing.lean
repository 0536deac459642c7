import DsdlHeaders.Proofs.Store.Staging

/-!
# What writing does to a store

A write that succeeds does exactly what its outcome says, and a write that fails does nothing to any
file. Both say so about the store as a whole: about the file at the path, about every other file and
about the directories.

* **Paths.** A plain path (`Path.IsPlain`) only goes down, so the places that it passes enclose the
  place that it leads to (`IsPlain.encloses_of_passes`). A path with dots may pass other places.
* **Directories.** All that is made on the way is where nothing was, at a place that the path passes
  before its end (`made_of_ensureDirectory`).
* **One write.** `WritesExactly` says what a successful write did, `FailsCleanly` what a failed one
  left behind. Both hold with and without the temporary file.
* **Many writes.** Along a sequence of writes each file holds what was written to it last
  (`WritesAll.read_of_last`), and a file that none of them goes to stays as it was
  (`WritesAll.file_iff`).

Main statements: `write_is_exact` and `failed_write_is_clean`.
-/

namespace DsdlHeaders

/-! ## Paths -/

namespace Path

/-- No piece of the path is a dot or two dots. -/
def IsPlain (path : String) : Prop :=
  ∀ piece ∈ Text.splitOn '/' path.toList, piece ≠ ['.'] ∧ piece ≠ ['.', '.']

instance (path : String) : Decidable (IsPlain path) :=
  inferInstanceAs (Decidable (∀ piece ∈ _, _))

/-- The way along a path passes a place before it ends. -/
def Passes (start : Place) (path : String) (place : Place) : Prop :=
  ∃ front name, front ++ [.entry name] <+: steps path ∧ front ++ [.entry name] ≠ steps path ∧
    place = destination start (front ++ [.entry name])

/-- A plain path goes down, from the root or from where it starts. -/
theorem IsPlain.exists_names {path : String} (h : IsPlain path) :
    ∃ (lead : List Step) (names : List String), (lead = [] ∨ lead = [.root]) ∧
      steps path = lead ++ names.map .entry := by
  have hsteps : (Text.splitOn '/' path.toList).filterMap stepOf? =
      (((Text.splitOn '/' path.toList).filter (· ≠ [])).map String.ofList).map .entry := by
    unfold IsPlain at h
    generalize Text.splitOn '/' path.toList = pieces at h ⊢
    induction pieces with
    | nil => rfl
    | cons piece pieces ih =>
      obtain ⟨⟨hdot, hup⟩, hpieces⟩ := List.forall_mem_cons.mp h
      by_cases hempty : piece = []
      · rw [List.filterMap_cons, List.filter_cons_of_neg (by simpa using hempty), ← ih hpieces]
        simp [stepOf?, hempty]
      · rw [List.filterMap_cons, List.filter_cons_of_pos (by simpa using hempty), List.map_cons,
          List.map_cons, ← ih hpieces]
        simp [stepOf?, hempty, hdot, hup]
  have hfirst : ¬ (Text.splitOn '/' path.toList).head? = some ['.'] := fun hhead =>
    (h _ (List.mem_of_mem_head? hhead)).1 rfl
  unfold steps
  dsimp only
  rw [hsteps, if_neg hfirst]
  split_ifs with habsolute
  · exact ⟨[.root], _, .inr rfl, rfl⟩
  · exact ⟨[], _, .inl rfl, rfl⟩

/-- The places that a plain path passes enclose the place that it leads to. -/
theorem IsPlain.encloses_of_passes {path : String} {start place : Place} (h : IsPlain path)
    (hpasses : Passes start path place) :
    place <+: destination start (steps path) ∧ place ≠ destination start (steps path) := by
  obtain ⟨lead, names, hlead, hsteps⟩ := h.exists_names
  obtain ⟨front, name, ⟨rest, hrest⟩, hproper, rfl⟩ := hpasses
  -- The way to the place starts like the path and has some of its names.
  obtain ⟨passed, left, hnames, hpassed⟩ : ∃ passed left, names = passed ++ left ∧
      front ++ [.entry name] = lead ++ passed.map .entry := by
    rw [hsteps] at hrest
    rcases hlead with rfl | rfl
    · obtain ⟨passed, left, hnames, hpassed, -⟩ := List.map_eq_append_iff.mp hrest.symm
      exact ⟨passed, left, hnames, hpassed.symm⟩
    · rcases front with _ | ⟨step, front⟩
      · exact absurd (List.cons.inj hrest).1 (by simp)
      · obtain ⟨rfl, hlater⟩ := List.cons.inj hrest
        obtain ⟨passed, left, hnames, hpassed, -⟩ := List.map_eq_append_iff.mp hlater.symm
        exact ⟨passed, left, hnames, by simp [hpassed]⟩
  rw [hpassed, hsteps, hnames, destination_append, destination_append, destination_entries,
    destination_entries]
  refine ⟨List.prefix_append_right_inj _ |>.mpr (List.prefix_append _ _), fun hsame => hproper ?_⟩
  have hleft : left = [] := by simpa using hsame
  rw [hpassed, hsteps, hnames, hleft, List.append_nil]

end Path

namespace Store

variable {store before after : Store} {readOnly : Bool} {path text : String} {outcome : Outcome}

/-! ## Directories -/

/-- A directory that is made touches no file. -/
theorem MakesOn.spares {steps : List Path.Step} (h : MakesOn steps before after) :
    SparesOutside ∅ before after := by
  obtain ⟨front, name, outer, -, -, hnone, rfl⟩ := h
  exact insert_directory_spares hnone

/-- Directories that were made on a way are where nothing was, at places that the way passes. -/
theorem made_of_makes {steps : List Path.Step}
    (h : Relation.ReflTransGen (MakesOn steps) before after) :
    SparesOutside ∅ before after ∧ ∀ place, after.node? place = some .directory →
      before.node? place = some .directory ∨ (before.node? place = none ∧
        ∃ front name, front ++ [.entry name] <+: steps ∧
          place = Path.destination before.current (front ++ [.entry name])) := by
  induction h with
  | refl => exact ⟨.refl _ _, fun _ hplace => .inl hplace⟩
  | tail _ hstep ih =>
    obtain ⟨hspares, hmade⟩ := ih
    refine ⟨hspares.trans hstep.spares, fun place hplace => ?_⟩
    obtain ⟨front, name, outer, hfront, houter, hnone, rfl⟩ := hstep
    by_cases hsame : place = outer ++ [name]
    · refine .inr ⟨?_, front, name, hfront, ?_⟩
      · -- What was there at first would still be there.
        rcases hbefore : before.node? place with _ | _ | ⟨bytes, mode⟩
        · rfl
        · exact absurd (hspares.directories place hbefore) (by simp [hsame, hnone])
        · have hfile := (hspares.files place (Set.notMem_empty _) bytes mode).mpr hbefore
          exact absurd hfile (by simp [hsame, hnone])
      · rw [hsame, walk_eq_ok houter, hspares.current, Path.destination_append]
        rfl
    · rw [node?_insert_of_ne hsame] at hplace
      exact hmade place hplace

/-- The way to the directory of a path ends before the path does. -/
theorem passes_of_folderOf {front : List Path.Step} {name : String}
    (h : front ++ [.entry name] <+: Path.steps (folderOf path)) :
    front ++ [.entry name] <+: Path.steps path ∧ front ++ [.entry name] ≠ Path.steps path := by
  have hhere : ¬ front ++ [.entry name] <+: Path.steps "." := by
    rw [show Path.steps "." = [.here] by decide]
    rintro hway
    rcases front with _ | ⟨step, front⟩
    · exact absurd (List.cons_prefix_cons.mp hway).1 (by simp)
    · exact absurd (List.cons_prefix_cons.mp hway).2 (by simp)
  unfold folderOf at h
  split at h
  · exact absurd h hhere
  · rename_i folder _ hparent
    obtain ⟨step, hsteps⟩ := Path.steps_of_parent? hparent
    rw [hsteps]
    refine ⟨h.trans (List.prefix_append _ _), fun hsame => ?_⟩
    have hlength := h.length_le
    rw [hsame, List.length_append, List.length_singleton] at hlength
    omega
  · exact absurd h hhere

/-- The directories that are made for a path are where nothing was, at places that it passes. -/
theorem made_of_ensureDirectory {place : Place}
    (h : (store.ensureDirectory (folderOf path)).2.node? place = some .directory) :
    store.node? place = some .directory ∨
      (store.node? place = none ∧ Path.Passes store.current path place) := by
  have hmakes := ensureFor_makes ((folderOf path).length + 1) store (folderOf path)
  rcases (made_of_makes hmakes).2 place h with hbefore | ⟨hnone, front, name, hfront, hplace⟩
  · exact .inl hbefore
  · obtain ⟨hleading, hproper⟩ := passes_of_folderOf hfront
    exact .inr ⟨hnone, front, name, hleading, hproper, hplace⟩

/-! ## One write -/

/-- The place that a path leads to. -/
def target (store : Store) (path : String) : Place :=
  Path.destination store.current (Path.steps path)

/-- What a write that succeeds does to a store. -/
structure WritesExactly (readOnly : Bool) (path text : String) (outcome : Outcome)
    (before after : Store) : Prop where
  /-- The file holds the normal form of the text. -/
  content : after.read path = .ok (normalize text).toUTF8
  created : outcome = .created ↔
    ∀ bytes mode, before.node? (before.target path) ≠ some (.file bytes mode)
  upToDate : outcome = .upToDate ↔
    ∃ mode, before.node? (before.target path) = some (.file (normalize text).toUTF8 mode)
  replaced : outcome = .replaced ↔ ∃ bytes mode,
    before.node? (before.target path) = some (.file bytes mode) ∧ bytes ≠ (normalize text).toUTF8
  /-- A file that is up to date keeps its mode. -/
  untouched : outcome = .upToDate → ∀ place bytes mode,
    after.node? place = some (.file bytes mode) ↔ before.node? place = some (.file bytes mode)
  mode : outcome ≠ .upToDate → after.mode? path = some (if readOnly then 0o444 else 0o600)
  /-- No other file changes, appears or disappears. -/
  others : ∀ place, place ≠ before.target path → ∀ bytes mode,
    after.node? place = some (.file bytes mode) ↔ before.node? place = some (.file bytes mode)
  kept : ∀ place, before.node? place = some .directory → after.node? place = some .directory
  /-- Every new directory encloses the file and was missing. -/
  made : ∀ place, after.node? place = some .directory →
    before.node? place = some .directory ∨
      (before.node? place = none ∧ place <+: before.target path ∧ place ≠ before.target path)

/-- What the outcome of a write says about the file before. -/
theorem outcome_of_write (h : store.write readOnly path text = (.ok outcome, after)) :
    (outcome = .upToDate ∧
      ∃ mode, store.node? (store.target path) = some (.file (normalize text).toUTF8 mode)) ∨
    (outcome = .replaced ∧ ∃ bytes mode,
      store.node? (store.target path) = some (.file bytes mode) ∧
        bytes ≠ (normalize text).toUTF8) ∨
    (outcome = .created ∧
      ∀ bytes mode, store.node? (store.target path) ≠ some (.file bytes mode)) := by
  obtain ⟨middle, place, hensure, hlocate, hcases⟩ := write_eq_ok h
  have hspares := ensureDirectory_spares store (folderOf path)
  rw [hensure] at hspares
  have hplace : place = store.target path := by
    rw [locate_eq_ok hlocate, hspares.current, target]
  have hfiles := hspares.files (store.target path) (Set.notMem_empty _)
  rw [hplace] at hcases
  rcases hcases with ⟨houtcome, -, mode, hnode⟩ | ⟨houtcome, ⟨old, mode, hnode, hdiffers⟩, -⟩ |
    ⟨houtcome, hnode, -⟩
  · exact .inl ⟨houtcome, mode, (hfiles _ mode).mp hnode⟩
  · exact .inr (.inl ⟨houtcome, old, mode, (hfiles old mode).mp hnode, hdiffers⟩)
  · refine .inr (.inr ⟨houtcome, fun bytes mode hfile => ?_⟩)
    exact absurd ((hfiles bytes mode).mpr hfile) (by simp [hnode])

/-- A file that is written gets the mode of written files. -/
theorem mode?_of_write (h : store.write readOnly path text = (.ok outcome, after))
    (hchanged : outcome ≠ .upToDate) : after.mode? path = some (writtenMode readOnly) := by
  obtain ⟨middle, place, -, hlocate, hcases⟩ := write_eq_ok h
  -- The file was put where no directory is.
  obtain ⟨hnode, rfl⟩ : middle.node? place ≠ some .directory ∧
      after = middle.insert place (.file (normalize text).toUTF8 (writtenMode readOnly)) := by
    rcases hcases with ⟨houtcome, -⟩ | ⟨-, ⟨old, mode, hnode, -⟩, hafter⟩ | ⟨-, hnode, hafter⟩
    · exact absurd houtcome hchanged
    · exact ⟨by simp [hnode], hafter⟩
    · exact ⟨by simp [hnode], hafter⟩
  unfold mode?
  rw [(insert_file_spares _ _ hnode).locate hlocate]
  simp [node?_insert_self (ne_nil_of_node?_ne hnode)]

/-- The directories after a write are those that were made for the path. -/
theorem directory_of_write (h : store.write readOnly path text = (.ok outcome, after))
    {place : Place} (hplace : after.node? place = some .directory) :
    (store.ensureDirectory (folderOf path)).2.node? place = some .directory := by
  obtain ⟨middle, target, hensure, -, hcases⟩ := write_eq_ok h
  rw [hensure]
  have hinsert : ∀ mode, middle.node? target ≠ some .directory →
      after = middle.insert target (.file (normalize text).toUTF8 mode) →
      middle.node? place = some .directory := by
    rintro mode hnode rfl
    by_cases hsame : place = target
    · rw [hsame, node?_insert_self (ne_nil_of_node?_ne hnode)] at hplace
      exact absurd hplace (by simp)
    · rwa [node?_insert_of_ne hsame] at hplace
  rcases hcases with ⟨-, rfl, -⟩ | ⟨-, ⟨old, mode, hnode, -⟩, hafter⟩ | ⟨-, hnode, hafter⟩
  · exact hplace
  · exact hinsert _ (by simp [hnode]) hafter
  · exact hinsert _ (by simp [hnode]) hafter

/-- A write to a plain path that succeeds does exactly what its outcome says. -/
theorem writesExactly_of_write (hplain : Path.IsPlain path)
    (h : store.write readOnly path text = (.ok outcome, after)) :
    WritesExactly readOnly path text outcome store after := by
  obtain ⟨place, mode, hlocate, hnode, hspares⟩ := write_ok_spares h
  have hplace : place = store.target path := by
    rw [locate_eq_ok hlocate, hspares.current, target]
  have houtcome := outcome_of_write h
  refine ⟨read_of_node? hlocate hnode, ?_, ?_, ?_, ?_, mode?_of_write h, ?_,
    hspares.directories, ?_⟩
  · rcases houtcome with ⟨rfl, found, hfile⟩ | ⟨rfl, bytes, found, hfile, -⟩ | ⟨rfl, hnone⟩
    · simp [hfile]
    · simp [hfile]
    · simpa using hnone
  · generalize (normalize text).toUTF8 = written at houtcome ⊢
    rcases houtcome with ⟨rfl, found, hfile⟩ | ⟨rfl, bytes, found, hfile, hdiffers⟩ | ⟨rfl, hnone⟩
    · simp [hfile]
    · simp [hfile, hdiffers]
    · simpa using hnone written
  · generalize (normalize text).toUTF8 = written at houtcome ⊢
    rcases houtcome with ⟨rfl, found, hfile⟩ | ⟨rfl, bytes, found, hfile, hdiffers⟩ | ⟨rfl, hnone⟩
    · simp [hfile]
    · simp [hfile, hdiffers]
    · simpa using fun bytes found hfile => absurd hfile (hnone bytes found)
  · rintro rfl other bytes found
    obtain ⟨middle, target, hensure, -, hcases⟩ := write_eq_ok h
    have hmade := ensureDirectory_spares store (folderOf path)
    rw [hensure] at hmade
    rcases hcases with ⟨-, rfl, -⟩ | ⟨hother, -⟩ | ⟨hother, -⟩
    · exact hmade.files other (Set.notMem_empty _) bytes found
    · exact absurd hother (by simp)
    · exact absurd hother (by simp)
  · intro other hother
    exact hspares.files other (by simpa [hplace] using hother)
  · intro other hother
    rcases made_of_ensureDirectory (directory_of_write h hother) with hbefore | ⟨hnone, hpasses⟩
    · exact .inl hbefore
    · exact .inr ⟨hnone, hplain.encloses_of_passes hpasses⟩

/-! ## Many writes -/

/-- A write that is asked for. -/
structure WriteOrder where
  readOnly : Bool
  path : String
  text : String

/-- One write after another, each of which succeeds. -/
inductive WritesAll : Store → List WriteOrder → Store → Prop where
  | nil {store : Store} : WritesAll store [] store
  | cons {before middle after : Store} {order : WriteOrder} {orders : List WriteOrder}
      {outcome : Outcome}
      (first : before.write order.readOnly order.path order.text = (.ok outcome, middle))
      (later : WritesAll middle orders after) : WritesAll before (order :: orders) after

namespace WritesAll

variable {orders earlier later : List WriteOrder} {order : WriteOrder}

/-- The places that no write goes to are spared. -/
theorem spares (h : WritesAll before orders after) :
    SparesOutside {place | ∃ order ∈ orders, before.target order.path = place} before after := by
  induction h with
  | nil => exact .refl _ _
  | @cons before middle after order orders outcome first later ih =>
    obtain ⟨place, mode, hlocate, -, hspares⟩ := write_ok_spares first
    have hplace : place = before.target order.path := by
      rw [locate_eq_ok hlocate, hspares.current, target]
    have hcurrent : ∀ path, middle.target path = before.target path := fun path => by
      rw [target, target, hspares.current]
    refine (hspares.mono ?_).trans (ih.mono ?_)
    · rintro other rfl
      exact ⟨order, List.mem_cons_self, hplace.symm⟩
    · rintro other ⟨next, hnext, rfl⟩
      exact ⟨next, List.mem_cons_of_mem _ hnext, (hcurrent next.path).symm⟩

/-- Writes one after another, cut in two. -/
theorem exists_middle (h : WritesAll before (earlier ++ later) after) :
    ∃ middle, WritesAll before earlier middle ∧ WritesAll middle later after := by
  induction earlier generalizing before with
  | nil => exact ⟨before, .nil, h⟩
  | cons order earlier ih =>
    cases h with
    | cons first rest =>
      obtain ⟨middle, hfirst, hlater⟩ := ih rest
      exact ⟨middle, .cons first hfirst, hlater⟩

/-- A file holds what was written to it last. -/
theorem read_of_last (h : WritesAll before (earlier ++ order :: later) after)
    (hlast : ∀ next ∈ later, before.target next.path ≠ before.target order.path) :
    after.read order.path = .ok (normalize order.text).toUTF8 := by
  obtain ⟨middle, hearlier, hrest⟩ := h.exists_middle
  cases hrest with
  | @cons _ written _ _ _ outcome first rest =>
    obtain ⟨place, mode, hlocate, hnode, hspares⟩ := write_ok_spares first
    have hcurrent : written.current = before.current :=
      hspares.current.trans hearlier.spares.current
    have hplace : place = before.target order.path := by
      rw [locate_eq_ok hlocate, hcurrent, target]
    refine read_of_node? (rest.spares.locate hlocate)
      ((rest.spares.files place ?_ _ mode).mpr hnode)
    rintro ⟨next, hnext, hsame⟩
    apply hlast next hnext
    rw [← hplace, ← hsame, target, target, hcurrent]

/-- A file that no write goes to stays as it was. -/
theorem file_iff (h : WritesAll before orders after) {place : Place}
    (hplace : ∀ order ∈ orders, before.target order.path ≠ place) (bytes : ByteArray)
    (mode : Nat) :
    after.node? place = some (.file bytes mode) ↔ before.node? place = some (.file bytes mode) := by
  apply h.spares.files
  rintro ⟨order, horder, hsame⟩
  exact hplace order horder hsame

end WritesAll

/-- **Lazy writing is exact.** A write to a plain path that succeeds leaves the normal form of the
text in the file, reports what was there before, and touches nothing else but missing directories
around the file. After any writes that succeed, every file holds what was written to it last. A
write through a temporary file, whatever that is called, succeeds only with the same outcome and the
same store, and it does succeed if the temporary file has a free path. -/
theorem write_is_exact :
    (∀ (before after : Store) (readOnly : Bool) (path text : String) (outcome : Outcome),
      Path.IsPlain path → before.write readOnly path text = (.ok outcome, after) →
      WritesExactly readOnly path text outcome before after) ∧
    (∀ (before after : Store) (orders : List WriteOrder), WritesAll before orders after →
      (∀ earlier order later, orders = earlier ++ order :: later →
        (∀ next ∈ later, before.target next.path ≠ before.target order.path) →
        after.read order.path = .ok (normalize order.text).toUTF8) ∧
      ∀ place, (∀ order ∈ orders, before.target order.path ≠ place) → ∀ bytes mode,
        after.node? place = some (.file bytes mode) ↔
          before.node? place = some (.file bytes mode)) ∧
    (∀ (before after : Store) (name : String) (readOnly : Bool) (path text : String)
      (outcome : Outcome),
      (before.writeThrough name readOnly path text = (.ok outcome, after) →
        before.write readOnly path text = (.ok outcome, after)) ∧
      ((before.ensureDirectory (folderOf path)).2.IsFree (Path.push (folderOf path) name) →
        before.write readOnly path text = (.ok outcome, after) →
        before.writeThrough name readOnly path text = (.ok outcome, after))) := by
  refine ⟨?_, ?_, ?_⟩
  · intro before after readOnly path text outcome hplain hwrite
    exact writesExactly_of_write hplain hwrite
  · intro before after orders hwrites
    refine ⟨?_, fun place hplace => hwrites.file_iff hplace⟩
    rintro earlier order later rfl hlast
    exact hwrites.read_of_last hlast
  · intro before after name readOnly path text outcome
    exact ⟨write_of_writeThrough, writeThrough_of_write⟩

/-- A store with one file. -/
def draftStore : Store :=
  ⟨[(["out", "a.hpp"], .file "old\n".toUTF8 0o644), (["out"], .directory)], []⟩

/-- Two writes, by paths of either kind. The first one makes a directory and a file, the second one
replaces the file that was there, and after it both files hold what was written. -/
theorem write_is_exact_draft : ∃ first second,
    draftStore.write true "out/sub/b.hpp" "x  \n\n" = (.ok .created, first) ∧
    WritesExactly true "out/sub/b.hpp" "x  \n\n" .created draftStore first ∧
    draftStore.writeThrough ".tmp" true "out/sub/b.hpp" "x  \n\n" = (.ok .created, first) ∧
    first.write false "/out//a.hpp" "new" = (.ok .replaced, second) ∧
    WritesExactly false "/out//a.hpp" "new" .replaced first second ∧
    second.read "out/sub/b.hpp" = .ok (normalize "x  \n\n").toUTF8 ∧
    second.read "/out//a.hpp" = .ok (normalize "new").toUTF8 := by
  have hcreated : (draftStore.write true "out/sub/b.hpp" "x  \n\n").1 = .ok .created := by
    decide +kernel
  have hreplaced : ((draftStore.write true "out/sub/b.hpp" "x  \n\n").2.write false
      "/out//a.hpp" "new").1 = .ok .replaced := by
    decide +kernel
  have hstaged : (draftStore.writeThrough ".tmp" true "out/sub/b.hpp" "x  \n\n").1 =
      .ok .created := by
    decide +kernel
  rcases hfirst : draftStore.write true "out/sub/b.hpp" "x  \n\n" with ⟨result, first⟩
  rw [hfirst] at hcreated hreplaced
  obtain rfl : result = .ok .created := hcreated
  rcases hsecond : first.write false "/out//a.hpp" "new" with ⟨result, second⟩
  rw [hsecond] at hreplaced
  obtain rfl : result = .ok .replaced := hreplaced
  rcases hthrough : draftStore.writeThrough ".tmp" true "out/sub/b.hpp" "x  \n\n" with
    ⟨result, through⟩
  rw [hthrough] at hstaged
  obtain rfl : result = .ok .created := hstaged
  obtain ⟨hexact, hlast, htemporary⟩ := write_is_exact
  have hsame := (htemporary draftStore through ".tmp" true _ _ .created).1 hthrough
  obtain rfl : first = through := (Prod.mk.inj (hfirst.symm.trans hsame)).2
  obtain ⟨hread, -⟩ := hlast draftStore second
    [⟨true, "out/sub/b.hpp", "x  \n\n"⟩, ⟨false, "/out//a.hpp", "new"⟩]
    (.cons hfirst (.cons hsecond .nil))
  have hplain : Path.IsPlain "out/sub/b.hpp" ∧ Path.IsPlain "/out//a.hpp" := by decide
  have hcreate := hexact draftStore first true "out/sub/b.hpp" "x  \n\n" .created hplain.1 hfirst
  have hreplace := hexact first second false "/out//a.hpp" "new" .replaced hplain.2 hsecond
  have hone := hread [] ⟨true, "out/sub/b.hpp", "x  \n\n"⟩ [⟨false, "/out//a.hpp", "new"⟩] rfl
    (by decide)
  have htwo := hread [⟨true, "out/sub/b.hpp", "x  \n\n"⟩] ⟨false, "/out//a.hpp", "new"⟩ [] rfl
    (by simp)
  exact ⟨first, second, rfl, hcreate, rfl, hsecond, hreplace, hone, htwo⟩

/-! ## Failed writes -/

/-- What a write that fails does to a store. -/
structure FailsCleanly (path : String) (before after : Store) : Prop where
  /-- No file changes, appears or disappears. -/
  files : ∀ place bytes mode,
    after.node? place = some (.file bytes mode) ↔ before.node? place = some (.file bytes mode)
  kept : ∀ place, before.node? place = some .directory → after.node? place = some .directory
  /-- Every new directory is on the way along the path and was missing. -/
  made : ∀ place, after.node? place = some .directory →
    before.node? place = some .directory ∨
      (before.node? place = none ∧ Path.Passes before.current path place)

/-- Making the directories for a path does no more than that. -/
theorem failsCleanly_ensureDirectory (store : Store) (path : String) :
    FailsCleanly path store (store.ensureDirectory (folderOf path)).2 := by
  have hspares := ensureDirectory_spares store (folderOf path)
  exact ⟨fun place => hspares.files place (Set.notMem_empty _), hspares.directories,
    fun place => made_of_ensureDirectory⟩

/-- **A failed write is atomic.** It leaves every file as it was and makes none; at most directories
on the way along the path are new. This holds for every path, and also if the write goes through a
temporary file of any name. -/
theorem failed_write_is_clean (before after : Store) (readOnly : Bool) (path text : String)
    (fault : WriteFault)
    (h : before.write readOnly path text = (.error fault, after) ∨
      ∃ name, before.writeThrough name readOnly path text = (.error fault, after)) :
    FailsCleanly path before after := by
  have hafter : after = (before.ensureDirectory (folderOf path)).2 := by
    rcases h with hwrite | ⟨name, hthrough⟩
    · exact write_eq_error hwrite
    · exact store_of_writeThrough_error hthrough
  rw [hafter]
  exact failsCleanly_ensureDirectory before path

/-- Paths that cannot be written in the store: below a file, at a directory, with a separator at the
end, back up to a file, with a character that no name may have, and nowhere. -/
def closedPaths : List String :=
  ["out/a.hpp/b", "out", "new/sub/c.hpp/", "up/../out/a.hpp/b", "out/\x00", ""]

/-- No write to one of these paths succeeds, and every file stays as it was. -/
theorem failed_write_is_clean_draft : closedPaths.Forall fun path => ∃ fault after,
    draftStore.write true path "text" = (.error fault, after) ∧
      FailsCleanly path draftStore after := by
  have hfails : ∀ path ∈ closedPaths,
      (draftStore.write true path "text").1.toOption.isNone = true := by
    decide +kernel
  rw [List.forall_iff_forall_mem]
  intro path hpath
  rcases hwrite : draftStore.write true path "text" with ⟨fault | outcome, after⟩
  · exact ⟨fault, after, rfl, failed_write_is_clean draftStore after true path "text" fault
      (.inl hwrite)⟩
  · exact absurd (hfails path hpath) (by simp [hwrite, Except.toOption])

end Store

end DsdlHeaders
