import Mathlib.Data.List.Basic
import Mathlib.Data.List.Induction
import Mathlib.Data.List.TakeWhile
import DsdlHeaders.Proofs.Text.Parts
import DsdlHeaders.Store.Basic

/-!
# Where paths lead

The place that a path means depends on its steps and on the current directory only: the store
decides whether the way is open, never where it leads.

* **Names** (`IsName`) are the pieces of a path that lead to an entry of a directory.
* **Building** a path from names joins them (`ofPieces_eq_joinWith`), and an extension goes to the
  last name (`withExtension_joinWith`).
* **Joined names below a directory** have the steps of the directory followed by one step for each
  name (`steps_push_joinWith`).
* **`destination`** follows steps without looking at a store. A walk that succeeds ends there
  (`walk_eq_ok`), and so does a path that can be located (`locate_eq_ok`).
-/

namespace DsdlHeaders

namespace Path

/-! ## Names -/

/-- A piece of a path that leads to an entry of a directory. -/
structure IsName (piece : List Char) : Prop where
  ne_nil : piece ≠ []
  ne_dot : piece ≠ ['.']
  ne_up : piece ≠ ['.', '.']
  no_separator : '/' ∉ piece

/-- The step that a name stands for. -/
theorem IsName.stepOf? {piece : List Char} (h : IsName piece) :
    stepOf? piece = some (.entry (String.ofList piece)) := by
  simp [Path.stepOf?, h.ne_nil, h.ne_dot, h.ne_up]

/-- The steps that names stand for. -/
theorem filterMap_stepOf? {names : List (List Char)} (h : ∀ name ∈ names, IsName name) :
    names.filterMap stepOf? = names.map fun name => .entry (String.ofList name) := by
  induction names with
  | nil => rfl
  | cons name names ih =>
    rw [List.filterMap_cons, (h name (by simp)).stepOf?, List.map_cons,
      ih fun other hother => h other (by simp [hother])]

/-- Joined names are no absolute path. -/
theorem isAbsolute_joinWith {names : List (List Char)} (h : ∀ name ∈ names, IsName name) :
    isAbsolute (String.ofList (Text.joinWith ['/'] names)) = false := by
  rcases names with _ | ⟨_ | ⟨c, name⟩, names⟩
  · simp [isAbsolute, Text.joinWith]
  · exact absurd rfl (h [] (by simp)).ne_nil
  · have hc : c ≠ '/' := by
      rintro rfl
      exact (h _ List.mem_cons_self).no_separator (by simp)
    have hjoin : ∃ tail, Text.joinWith ['/'] ((c :: name) :: names) = c :: tail := by
      by_cases hnames : names = []
      · subst hnames
        exact ⟨name, rfl⟩
      · rw [Text.joinWith_cons hnames]
        exact ⟨_, rfl⟩
    obtain ⟨tail, hjoin⟩ := hjoin
    simp [isAbsolute, hjoin, hc]

/-! ## Building paths from names -/

/-- Names that are pushed one after the other are joined. -/
theorem ofPieces_eq_joinWith {names : List (List Char)} (h : ∀ name ∈ names, IsName name) :
    ofPieces (names.map String.ofList) = String.ofList (Text.joinWith ['/'] names) := by
  induction names using List.reverseRec with
  | nil => rfl
  | append_singleton names last ih =>
    have hlast : isAbsolute (String.ofList (Text.joinWith ['/'] [last])) = false :=
      isAbsolute_joinWith fun name hname => h name (by simp_all)
    rw [Text.joinWith] at hlast
    have hfront := ih fun name hname => h name (by simp [hname])
    unfold ofPieces at hfront ⊢
    rw [List.map_append, List.foldl_append, hfront, List.map_singleton, List.foldl_cons,
      List.foldl_nil, push, if_neg (by simp [hlast])]
    rcases List.eq_nil_or_concat' names with rfl | ⟨front, name, rfl⟩
    · rw [if_pos (by simp [Text.joinWith])]
      simp [Text.joinWith]
    · -- the joined names end in a character of a name
      have hname : IsName name := h name (by simp)
      have hend : (Text.joinWith ['/'] (front ++ [name])).getLast? = name.getLast? := by
        rw [Text.joinWith_concat, List.getLast?_append, List.getLast?_eq_some_getLast hname.ne_nil]
        rfl
      have hslash : name.getLast? ≠ some '/' := fun hslash =>
        hname.no_separator (List.mem_of_getLast? hslash)
      have hne : Text.joinWith ['/'] (front ++ [name]) ≠ [] := by
        rw [Text.joinWith_concat]
        simp [hname.ne_nil]
      rw [if_neg (by simp [hne, hend, hslash]), Text.joinWith_concat _ (front ++ [name])]
      apply String.ext
      simp [Text.joinWith_concat]

/-- The extension of a joined path goes to its last name, when that one has no dot. -/
theorem withExtension_joinWith {names : List (List Char)} {last : List Char}
    (h : IsName last) (hdot : '.' ∉ last) (extension : String) :
    withExtension (String.ofList (Text.joinWith ['/'] (names ++ [last]))) extension =
      String.ofList (Text.joinWith ['/'] (names ++
        [last ++ if extension = "" then [] else '.' :: extension.toList])) := by
  have htrim : trimmed (String.ofList (Text.joinWith ['/'] (names ++ [last]))) =
      Text.joinWith ['/'] (names ++ [last]) := by
    rw [trimmed, String.toList_ofList, Text.joinWith_concat, List.reverse_append]
    rcases hrev : last.reverse with _ | ⟨c, rest⟩
    · exact absurd (List.reverse_eq_nil_iff.mp hrev) h.ne_nil
    · have hmem : c ∈ last := by
        rw [← List.mem_reverse, hrev]
        exact List.mem_cons_self
      have hc : c ≠ '/' ∧ c ≠ '.' :=
        ⟨fun hc => h.no_separator (hc ▸ hmem), fun hc => hdot (hc ▸ hmem)⟩
      have hkept : ∀ t : List Char, trimTail (c :: t) = c :: t := by
        intro t
        cases t with
        | nil => rfl
        | cons d t => simp [trimTail, hc.1, hc.2]
      rw [List.cons_append, hkept, ← List.cons_append, ← hrev, ← List.reverse_append,
        List.reverse_reverse]
  have hname : lastName? (String.ofList (Text.joinWith ['/'] (names ++ [last]))) = some last := by
    have hlead : (names.flatMap (· ++ ['/'])).reverse.takeWhile (· ≠ '/') = [] := by
      rcases List.eq_nil_or_concat' names with rfl | ⟨front, name, rfl⟩
      · rfl
      · simp
    have htake : last.reverse.takeWhile (· ≠ '/') = last.reverse := by
      rw [List.takeWhile_eq_self_iff]
      intro c hc
      have : c ≠ '/' := fun hslash => h.no_separator (hslash ▸ List.mem_reverse.mp hc)
      simpa using this
    rw [lastName?, htrim, Text.joinWith_concat, List.reverse_append,
      List.takeWhile_append, htake, hlead]
    simp [h.ne_nil, h.ne_dot, h.ne_up]
  have hstem : stem last = last := by
    rw [stem, Text.cutLast?_of_not_mem hdot]
  rw [withExtension, hname]
  simp only [htrim, hstem]
  rw [Text.joinWith_concat, Text.joinWith_concat, List.take_of_length_le (by simp),
    ← List.append_assoc]

/-! ## Steps below a directory -/

/-- The steps of two paths with a separator in between. The first one must not be empty, because
the separator would make the path absolute. -/
theorem steps_append_separator {folder : List Char} (hne : folder ≠ []) (rest : List Char) :
    steps (String.ofList (folder ++ '/' :: rest)) =
      steps (String.ofList folder) ++ (Text.splitOn '/' rest).filterMap stepOf? := by
  have hlead : isAbsolute (String.ofList (folder ++ '/' :: rest)) =
      isAbsolute (String.ofList folder) := by
    cases folder with
    | nil => exact absurd rfl hne
    | cons c folder =>
      simp only [isAbsolute, String.toList_ofList, List.cons_append]
      split <;> simp_all
  have hhead : (Text.splitOn '/' (folder ++ '/' :: rest)).head? =
      (Text.splitOn '/' folder).head? := by
    rw [Text.splitOn_append_cons]
    rcases hparts : Text.splitOn '/' folder with _ | ⟨part, parts⟩
    · exact absurd hparts (Text.splitOn_ne_nil _ _)
    · rfl
  simp only [steps, hlead, String.toList_ofList, hhead]
  rw [Text.splitOn_append_cons, List.filterMap_append, List.append_assoc]

/-- A separator at the end adds no step. -/
theorem steps_append_nil {folder : List Char} (hne : folder ≠ []) :
    steps (String.ofList (folder ++ ['/'])) = steps (String.ofList folder) := by
  rw [steps_append_separator hne []]
  simp [Text.splitOn, stepOf?]

/-- Joined names below a directory have the steps of the directory followed by one step for each
name. -/
theorem steps_push_joinWith {names : List (List Char)} (hne : names ≠ [])
    (h : ∀ name ∈ names, IsName name) (folder : String) :
    steps (push folder (String.ofList (Text.joinWith ['/'] names))) =
      steps folder ++ names.map fun name => .entry (String.ofList name) := by
  have hsplit : Text.splitOn '/' (Text.joinWith ['/'] names) = names :=
    Text.splitOn_joinWith hne fun name hname => (h name hname).no_separator
  have habs := isAbsolute_joinWith h
  obtain ⟨chars, rfl⟩ : ∃ chars, folder = String.ofList chars := ⟨folder.toList, by simp⟩
  unfold push
  rw [if_neg (by simp [habs])]
  by_cases hchars : chars = []
  · subst hchars
    have hhead : ¬ names.head? = some ['.'] := by
      intro hhead
      exact (h _ (List.mem_of_mem_head? hhead)).ne_dot rfl
    have hempty : steps (String.ofList []) = [] := by decide
    rw [if_pos (by simp), hempty]
    simp [steps, isAbsolute_joinWith h, hsplit, hhead, filterMap_stepOf? h]
  · by_cases hlast : chars.getLast? = some '/'
    · obtain ⟨front, rfl⟩ := List.getLast?_eq_some_iff.mp hlast
      rw [if_pos (by simp), ← String.ofList_append, List.append_assoc, List.singleton_append]
      by_cases hfront : front = []
      · subst hfront
        -- the root itself: the separator is the root step
        have hroot : steps (String.ofList ([] ++ ['/'])) = [.root] := by decide
        have : Text.splitOn '/' ('/' :: Text.joinWith ['/'] names) = [] :: names := by
          rw [← hsplit]
          simp [Text.splitOn, hsplit]
        rw [hroot]
        simp [steps, isAbsolute, this, stepOf?, filterMap_stepOf? h]
      · rw [steps_append_separator hfront, hsplit, filterMap_stepOf? h, steps_append_nil hfront]
    · rw [if_neg (by simp [hchars, hlast])]
      have hpath : String.ofList chars ++ "/" ++ String.ofList (Text.joinWith ['/'] names) =
          String.ofList (chars ++ '/' :: Text.joinWith ['/'] names) := by
        apply String.ext
        simp
      rw [hpath, steps_append_separator hchars, hsplit, filterMap_stepOf? h]

/-! ## Destinations -/

/-- Where steps lead from a place when nothing is in the way. -/
def destination : Place → List Step → Place
  | place, [] => place
  | _, .root :: rest => destination [] rest
  | place, .here :: rest => destination place rest
  | place, .up :: rest => destination place.dropLast rest
  | place, .entry name :: rest => destination (place ++ [name]) rest

/-- One way after another. -/
theorem destination_append (place : Place) (first second : List Step) :
    destination place (first ++ second) = destination (destination place first) second := by
  induction first generalizing place with
  | nil => rfl
  | cons step first ih => cases step <;> exact ih _

/-- Names lead further down. -/
theorem destination_entries (place : Place) (names : List String) :
    destination place (names.map .entry) = place ++ names := by
  induction names generalizing place with
  | nil => simp [destination]
  | cons name names ih => rw [List.map_cons, destination, ih, List.append_assoc]; rfl

end Path

namespace Store

/-- A walk that succeeds ends where its steps lead. -/
theorem walk_eq_ok {store : Store} {start place : Place} {steps : List Path.Step}
    (h : store.walk start steps = .ok place) : place = Path.destination start steps := by
  induction steps generalizing start with
  | nil =>
    simp only [walk, Except.ok.injEq] at h
    exact h.symm
  | cons step steps ih =>
    cases step with
    | root => exact ih h
    | here => exact ih h
    | up => exact ih h
    | entry name =>
      simp only [walk] at h
      split at h
      · simp at h
      · split at h
        · simp at h
        · simp at h
        · exact ih h

/-- A path that can be located is where its steps lead. -/
theorem locate_eq_ok {store : Store} {path : String} {place : Place} {asDirectory : Bool}
    (h : store.locate path = .ok (.entry place asDirectory)) :
    place = Path.destination store.current (Path.steps path) := by
  unfold locate at h
  split_ifs at h
  simp only at h
  split at h
  · rename_i name hlast _
    cases hfolder : store.walk store.current (Path.steps path).dropLast with
    | error fault => simp [hfolder, bind, Except.bind] at h
    | ok folder =>
      simp only [hfolder, bind, Except.bind] at h
      split_ifs at h
      obtain ⟨rfl, -⟩ := Spot.entry.inj (Except.ok.inj h)
      obtain ⟨front, hsteps⟩ := List.getLast?_eq_some_iff.mp hlast
      rw [hsteps] at hfolder ⊢
      rw [List.dropLast_concat] at hfolder
      rw [Path.destination_append, ← walk_eq_ok hfolder]
      rfl
  · cases hfolder : store.walk store.current (Path.steps path) with
    | error fault => simp [hfolder, bind, Except.bind] at h
    | ok folder => simp [hfolder, bind, Except.bind] at h

end Store

end DsdlHeaders
