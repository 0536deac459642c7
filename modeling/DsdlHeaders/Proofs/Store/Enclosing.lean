import Mathlib.Data.List.Infix
import DsdlHeaders.Proofs.Store.Steps

/-!
# The directories around a path

Directories are made along a path: first what encloses it, then the path itself. Here is what
`parent?` does to the steps of a path.

* **Trimming** drops a tail that says nothing, so it changes no step (`steps_trimmed`).
* **One step less** leads to the enclosing directory (`steps_of_parent?`), whose spelling is a
  proper beginning of that of the path (`prefix_of_parent?`).
* **Tidy** paths (`IsTidy`) are spelled from the root and have nothing to trim. What encloses a path
  from the root is tidy (`IsTidy.of_parent?`), and so is the path of a header
  (`isTidy_push_joinWith`).
-/

namespace DsdlHeaders.Path

/-! ## Trimming -/

/-- Trimming drops characters at one end only. -/
theorem trimTail_suffix (text : List Char) : trimTail text <:+ text := by
  fun_induction trimTail text with
  | case1 => exact List.suffix_refl _
  | case2 c => exact List.suffix_refl _
  | case3 d rest ih => exact ih.trans (List.suffix_cons _ _)
  | case4 c d hc hdot =>
    obtain ⟨-, hd⟩ := Bool.and_eq_true_iff.mp hdot
    rw [decide_eq_true_iff] at hd
    exact hd ▸ List.suffix_cons _ _
  | case5 c d hc hdot e rest ih =>
    exact ih.trans ((List.suffix_cons _ _).trans (List.suffix_cons _ _))
  | case6 c d rest hc hdot => exact List.suffix_refl _

/-- Something is left of a text. -/
theorem trimTail_ne_nil {text : List Char} (h : text ≠ []) : trimTail text ≠ [] := by
  fun_induction trimTail text <;> simp_all

/-- What is left ends in no separator and in no dot that says nothing, unless it is that alone. -/
theorem of_trimTail_eq_cons_cons {text rest : List Char} {c d : Char}
    (h : trimTail text = c :: d :: rest) : c ≠ '/' ∧ (c = '.' → d ≠ '/') := by
  fun_induction trimTail text <;> simp_all

/-- A text that is left stays. -/
theorem trimTail_trimTail (text : List Char) : trimTail (trimTail text) = trimTail text := by
  rcases htrim : trimTail text with _ | ⟨c, _ | ⟨d, rest⟩⟩
  · rfl
  · rfl
  · obtain ⟨hc, hdot⟩ := of_trimTail_eq_cons_cons htrim
    simp only [trimTail, if_neg hc]
    rw [if_neg (by simpa using hdot)]

/-- The tail says nothing: without it the steps are the same. -/
theorem steps_trimTail {text : List Char} (h : text ≠ []) :
    steps (String.ofList (trimTail text).reverse) = steps (String.ofList text.reverse) := by
  fun_induction trimTail text with
  | case1 => rfl
  | case2 c => rfl
  | case3 d rest ih =>
    have htext : ('/' :: d :: rest).reverse = (d :: rest).reverse ++ ['/'] := List.reverse_cons
    rw [ih (by simp), htext, steps_append_nil (by simp)]
  | case4 c d hc hdot =>
    simp only [Bool.and_eq_true, decide_eq_true_iff] at hdot
    obtain ⟨rfl, rfl⟩ := hdot
    decide
  | case5 c d hc hdot e rest ih =>
    simp only [Bool.and_eq_true, decide_eq_true_iff] at hdot
    obtain ⟨rfl, rfl⟩ := hdot
    have htext : ('.' :: '/' :: e :: rest).reverse = (e :: rest).reverse ++ ['/', '.'] := by simp
    have hdot : (Text.splitOn '/' ['.']).filterMap stepOf? = [] := by decide
    rw [ih (by simp), htext, steps_append_separator (by simp), hdot, List.append_nil]
  | case6 c d rest hc hdot => rfl

/-- The steps of a path do not depend on a tail that says nothing. -/
theorem steps_trimmed {path : String} (h : path ≠ "") :
    steps (String.ofList (trimmed path)) = steps path := by
  have hne : path.toList.reverse ≠ [] := by simpa using h
  have htrim := steps_trimTail hne
  rwa [List.reverse_reverse, String.ofList_toList] at htrim

/-! ## Enclosing directories -/

/-- The last piece of what is left of a text leads somewhere. -/
theorem lastPiece_trimTail {text : List Char} (hne : trimTail text ≠ [])
    (hroot : trimTail text ≠ ['/']) :
    (trimTail text).takeWhile (· ≠ '/') ≠ [] ∧
      ((trimTail text).dropWhile (· ≠ '/') ≠ [] →
        (trimTail text).takeWhile (· ≠ '/') ≠ ['.']) := by
  rcases htrim : trimTail text with _ | ⟨c, _ | ⟨d, rest⟩⟩
  · exact absurd htrim hne
  · have hc : c ≠ '/' := fun hc => hroot (by rw [htrim, hc])
    simp [hc]
  · obtain ⟨hc, hdot⟩ := of_trimTail_eq_cons_cons htrim
    refine ⟨by simp [hc], fun _ hpiece => ?_⟩
    rw [List.takeWhile_cons_of_pos (by simpa using hc)] at hpiece
    obtain ⟨hfirst, hlater⟩ := List.cons.inj hpiece
    have hd : d = '/' := by
      by_contra hd
      rw [List.takeWhile_cons_of_pos (by simpa using hd)] at hlater
      exact absurd hlater (by simp)
    exact hdot hfirst hd

/-- How a path with an enclosing directory ends: the last piece leads somewhere, and what comes
before it is that directory. -/
theorem exists_piece_of_parent? {path folder : String} (h : parent? path = some folder) :
    ∃ outer piece, trimmed path = outer ++ piece ∧ piece ≠ [] ∧ '/' ∉ piece ∧
      folder = String.ofList (trimTail outer.reverse).reverse ∧
      (outer = [] ∨ ∃ front, outer = front ++ ['/'] ∧ piece ≠ ['.']) := by
  unfold parent? at h
  simp only at h
  split_ifs at h with hroot
  obtain rfl := Option.some.inj h
  simp only [Bool.or_eq_true, decide_eq_true_iff, not_or] at hroot
  obtain ⟨base, hbase⟩ : ∃ base, base = trimTail path.toList.reverse := ⟨_, rfl⟩
  have htrimmed : trimmed path = base.reverse := by rw [hbase, trimmed]
  rw [htrimmed, List.reverse_eq_nil_iff, List.reverse_eq_iff] at hroot
  obtain ⟨hpiece, hdot⟩ := lastPiece_trimTail (hbase ▸ hroot.1) (hbase ▸ hroot.2)
  rw [← hbase] at hpiece hdot
  rw [htrimmed, List.reverse_reverse]
  refine ⟨(base.dropWhile (· ≠ '/')).reverse, (base.takeWhile (· ≠ '/')).reverse,
    ?_, ?_, ?_, ?_, ?_⟩
  · rw [← List.reverse_append, List.takeWhile_append_dropWhile]
  · simpa using hpiece
  · intro hmem
    have hall := List.mem_takeWhile_imp (List.mem_reverse.mp hmem)
    exact absurd hall (by simp)
  · rw [List.reverse_reverse]
  · rcases hdrop : base.dropWhile (· ≠ '/') with _ | ⟨c, front⟩
    · exact .inl rfl
    · have hcut : base.dropWhile (· ≠ '/') ≠ [] := hdrop ▸ List.cons_ne_nil _ _
      have hc : c = '/' := by
        have hhead := List.head?_dropWhile_not (· ≠ '/') base
        rw [hdrop] at hhead
        simpa using hhead
      refine .inr ⟨front.reverse, by rw [List.reverse_cons, hc], ?_⟩
      rw [ne_eq, List.reverse_eq_iff]
      exact hdot hcut

/-- A piece that leads somewhere is one step. -/
theorem exists_stepOf? {piece : List Char} (hne : piece ≠ []) (hdot : piece ≠ ['.']) :
    ∃ step, stepOf? piece = some step := by
  unfold stepOf?
  rw [if_neg (by simp [hne, hdot])]
  split
  · exact ⟨_, rfl⟩
  · exact ⟨_, rfl⟩

/-- A path has one step more than what encloses it. -/
theorem steps_of_parent? {path folder : String} (h : parent? path = some folder) :
    ∃ step, steps path = steps folder ++ [step] := by
  obtain ⟨outer, piece, htrimmed, hpiece, hslash, rfl, houter⟩ := exists_piece_of_parent? h
  have hpath : path ≠ "" := by
    rintro rfl
    have hnone : parent? "" = none := by decide
    exact absurd (hnone.symm.trans h) (by simp)
  have hsplit : Text.splitOn '/' piece = [piece] := Text.splitOn_of_not_mem hslash
  rw [← steps_trimmed hpath, htrimmed]
  rcases houter with rfl | ⟨front, rfl, hdot⟩
  · have habsolute : isAbsolute (String.ofList piece) = false := by
      rcases piece with _ | ⟨c, piece⟩
      · rfl
      · have hc : c ≠ '/' := fun hc => hslash (by simp [hc])
        simp [isAbsolute, hc]
    have hempty : steps (String.ofList (trimTail ([] : List Char).reverse).reverse) = [] := by
      decide
    rw [hempty, List.nil_append]
    simp only [List.nil_append, steps, habsolute, String.toList_ofList, hsplit]
    by_cases hdot : piece = ['.']
    · subst hdot
      exact ⟨.here, by decide⟩
    · obtain ⟨step, hstep⟩ := exists_stepOf? hpiece hdot
      exact ⟨step, by simp [hdot, hstep]⟩
  · obtain ⟨step, hstep⟩ := exists_stepOf? hpiece hdot
    refine ⟨step, ?_⟩
    rw [steps_trimTail (by simp), List.reverse_reverse, List.append_assoc, List.singleton_append]
    by_cases hfront : front = []
    · subst hfront
      have hroot : steps (String.ofList ([] ++ ['/'])) = [.root] := by decide
      have hpieces : Text.splitOn '/' ('/' :: piece) = [[], piece] := by
        rw [← List.nil_append ('/' :: piece), Text.splitOn_append_cons, hsplit]
        rfl
      have hnone : stepOf? [] = none := rfl
      rw [hroot]
      simp [steps, isAbsolute, hpieces, hstep, hnone]
    · rw [steps_append_nil hfront, steps_append_separator hfront, hsplit]
      simp [hstep]

/-- Trimming a path drops characters at its end only. -/
theorem trimmed_isPrefixOf (path : String) : trimmed path <+: path.toList := by
  have h := (trimTail_suffix path.toList.reverse).reverse
  rwa [List.reverse_reverse] at h

/-- The spelling of a path starts with that of what encloses it. -/
theorem prefix_of_parent? {path folder : String} (h : parent? path = some folder) :
    folder.toList <+: path.toList ∧ folder.toList.length < path.toList.length := by
  obtain ⟨outer, piece, htrimmed, hpiece, -, rfl, -⟩ := exists_piece_of_parent? h
  have houter : (trimTail outer.reverse).reverse <+: outer := by
    have hkept := (trimTail_suffix outer.reverse).reverse
    rwa [List.reverse_reverse] at hkept
  have hpath : outer ++ piece <+: path.toList := htrimmed ▸ trimmed_isPrefixOf path
  rw [String.toList_ofList]
  refine ⟨houter.trans ((List.prefix_append _ _).trans hpath), ?_⟩
  have hshort := houter.length_le
  have hlong := hpath.length_le
  have hpos := List.length_pos_of_ne_nil hpiece
  rw [List.length_append] at hlong
  omega

/-! ## Tidy paths -/

/-- A path from the root without a tail that says nothing. -/
structure IsTidy (path : String) : Prop where
  absolute : isAbsolute path = true
  trimmed : trimmed path = path.toList

/-- A path from the root starts with a separator. -/
theorem isAbsolute_iff {path : String} : isAbsolute path = true ↔ ['/'] <+: path.toList := by
  unfold isAbsolute
  split
  · simp_all
  · rename_i h
    simp only [Bool.false_eq_true, false_iff]
    rintro ⟨rest, hrest⟩
    exact h rest hrest.symm

/-- A tidy path is not empty. -/
theorem IsTidy.ne_empty {path : String} (h : IsTidy path) : path ≠ "" := by
  rintro rfl
  exact absurd h.absolute (by decide)

/-- The first of two texts is a path from the root if both together are one. -/
theorem isAbsolute_of_prefix {front : List Char} {path : String} (hne : front ≠ [])
    (hfront : front <+: path.toList) (h : isAbsolute path = true) :
    isAbsolute (String.ofList front) = true := by
  rw [isAbsolute_iff] at h ⊢
  rw [String.toList_ofList]
  exact List.prefix_of_prefix_length_le h hfront (List.length_pos_of_ne_nil hne)

/-- What encloses a path from the root is spelled from the root, too. -/
theorem IsTidy.of_parent? {path folder : String} (h : parent? path = some folder)
    (habsolute : isAbsolute path = true) : IsTidy folder := by
  obtain ⟨outer, piece, htrimmed, hpiece, hslash, hfolder, houter⟩ := exists_piece_of_parent? h
  have hne : outer ≠ [] := by
    rintro rfl
    have hall : piece <+: path.toList := by
      have hkept := trimmed_isPrefixOf path
      rwa [htrimmed] at hkept
    have hstart := isAbsolute_of_prefix hpiece hall habsolute
    rw [isAbsolute_iff, String.toList_ofList] at hstart
    exact hslash (hstart.subset (by simp))
  have hkept : (trimTail outer.reverse).reverse ≠ [] := by
    simpa using trimTail_ne_nil (List.reverse_ne_nil_iff.mpr hne)
  have hbeginning := (prefix_of_parent? h).1
  constructor
  · rw [hfolder, String.toList_ofList] at hbeginning
    exact hfolder ▸ isAbsolute_of_prefix hkept hbeginning habsolute
  · rw [hfolder, Path.trimmed, String.toList_ofList, List.reverse_reverse, trimTail_trimTail]

/-- A tidy path without an enclosing directory is the root. -/
theorem IsTidy.eq_root {path : String} (h : IsTidy path) (hnone : parent? path = none) :
    path.toList = ['/'] := by
  unfold parent? at hnone
  simp only at hnone
  split_ifs at hnone with hroot
  have habsolute := isAbsolute_iff.mp h.absolute
  simp only [Bool.or_eq_true, decide_eq_true_iff, h.trimmed] at hroot
  rcases hroot with hempty | hroot
  · rw [hempty] at habsolute
    exact absurd habsolute (by simp)
  · exact hroot

/-- A tidy path below the root ends in a piece that leads somewhere. -/
theorem IsTidy.exists_piece {path folder : String} (h : IsTidy path)
    (hparent : parent? path = some folder) : ∃ front piece, path.toList = front ++ '/' :: piece ∧
      piece ≠ [] ∧ piece ≠ ['.'] ∧ '/' ∉ piece := by
  obtain ⟨outer, piece, htrimmed, hpiece, hslash, -, houter⟩ := exists_piece_of_parent? hparent
  rw [h.trimmed] at htrimmed
  rcases houter with rfl | ⟨front, rfl, hdot⟩
  · have hstart := isAbsolute_iff.mp h.absolute
    rw [htrimmed] at hstart
    exact absurd (hstart.subset (by simp)) hslash
  · exact ⟨front, piece, by simp [htrimmed], hpiece, hdot, hslash⟩

/-- A tidy path ends in no step that says nothing. -/
theorem IsTidy.endsInDot {path : String} (h : IsTidy path) : Store.endsInDot path = false := by
  unfold Store.endsInDot
  cases hparent : parent? path with
  | none =>
    rw [h.eq_root hparent]
    decide
  | some folder =>
    obtain ⟨front, piece, htext, hpiece, hdot, hslash⟩ := h.exists_piece hparent
    rw [htext, Text.splitOn_append_cons, Text.splitOn_of_not_mem hslash, List.filter_append]
    simp [hpiece, hdot]

/-- A tidy path below the root does not end in a separator. -/
theorem IsTidy.getLast?_ne {path folder : String} (h : IsTidy path)
    (hparent : parent? path = some folder) : path.toList.getLast? ≠ some '/' := by
  obtain ⟨front, piece, htext, hpiece, -, hslash⟩ := h.exists_piece hparent
  have hlast : path.toList.getLast? = some (piece.getLast hpiece) := by
    rw [htext, List.getLast?_append, List.getLast?_cons, List.getLast?_eq_some_getLast hpiece]
    rfl
  rw [hlast]
  intro hsame
  exact hslash (Option.some.inj hsame ▸ List.getLast_mem hpiece)

/-! ## Paths of headers -/

/-- A path below one that is spelled from the root is spelled from the root. -/
theorem isAbsolute_push {folder : String} (h : isAbsolute folder = true) (piece : String) :
    isAbsolute (push folder piece) = true := by
  rw [isAbsolute_iff] at h
  unfold push
  split_ifs with habsolute hempty
  · exact habsolute
  · rw [isAbsolute_iff, String.toList_append]
    exact h.trans (List.prefix_append _ _)
  · rw [isAbsolute_iff, String.toList_append, String.toList_append, List.append_assoc]
    exact h.trans (List.prefix_append _ _)

/-- The absolute spelling of a path is spelled from the root. -/
theorem isAbsolute_of_absolute? {current path folder : String}
    (hcurrent : isAbsolute current = true) (h : absolute? current path = some folder) :
    isAbsolute folder = true := by
  have hpushed : ∀ (later : List Step) (start : String), isAbsolute start = true →
      isAbsolute (later.foldl (fun acc step => push acc step.text) start) = true := by
    intro later
    induction later with
    | nil => exact fun _ hstart => hstart
    | cons step later ih => exact fun start hstart => ih _ (isAbsolute_push hstart _)
  unfold absolute? at h
  by_cases hempty : path = ""
  · rw [if_pos hempty] at h
    exact absurd h (by simp)
  · rw [if_neg hempty] at h
    simp only [Option.some.injEq] at h
    have hstart : isAbsolute
        (if (Text.startsWith ['/', '/'] path.toList &&
            !Text.startsWith ['/', '/', '/'] path.toList) = true then "//"
          else if isAbsolute path = true then "/" else current) = true := by
      split_ifs
      · decide
      · decide
      · exact hcurrent
    have hbody := hpushed ((steps path).filter fun step => step ≠ .root && step ≠ .here) _ hstart
    by_cases hslash : path.toList.getLast? = some '/'
    · rw [if_pos hslash] at h
      exact h ▸ isAbsolute_push hbody _
    · rw [if_neg hslash] at h
      exact h ▸ hbody

/-- A name at the end of a text is no tail that says nothing. -/
theorem IsName.trimTail {name : List Char} (h : IsName name) (rest : List Char) :
    trimTail (name.reverse ++ rest) = name.reverse ++ rest := by
  have hmem : ∀ c ∈ name.reverse, c ≠ '/' := by
    rintro c hc rfl
    exact h.no_separator (List.mem_reverse.mp hc)
  rcases hname : name.reverse with _ | ⟨c, later⟩
  · exact absurd (List.reverse_eq_nil_iff.mp hname) h.ne_nil
  · rw [hname] at hmem
    have hc : c ≠ '/' := hmem c (by simp)
    rcases later with _ | ⟨d, later⟩
    · -- a name of one character is no dot
      have hdot : c ≠ '.' := by
        rintro rfl
        exact h.ne_dot (List.reverse_eq_iff.mp hname)
      rcases rest with _ | ⟨d, rest⟩
      · rfl
      · simp [Path.trimTail, hc, hdot]
    · have hd : d ≠ '/' := hmem d (by simp)
      simp [Path.trimTail, hc, hd]

/-- Joined names below a directory that is spelled from the root make a tidy path, and not the
root. -/
theorem isTidy_push_joinWith {folder : String} (hfolder : isAbsolute folder = true)
    {names : List (List Char)} (hne : names ≠ []) (h : ∀ name ∈ names, IsName name) :
    IsTidy (push folder (String.ofList (Text.joinWith ['/'] names))) ∧
      ∃ outer, parent? (push folder (String.ofList (Text.joinWith ['/'] names))) = some outer := by
  obtain ⟨front, last, rfl⟩ : ∃ front last, names = front ++ [last] :=
    (List.eq_nil_or_concat' names).resolve_left hne
  have hlast : IsName last := h last (by simp)
  obtain ⟨path, hpath⟩ : ∃ path,
      path = push folder (String.ofList (Text.joinWith ['/'] (front ++ [last]))) := ⟨_, rfl⟩
  obtain ⟨outer, houter⟩ : ∃ outer, path.toList = outer ++ last := by
    rw [hpath]
    unfold push
    rw [if_neg (by simp [isAbsolute_joinWith h])]
    rw [Text.joinWith_concat]
    split_ifs
    · exact ⟨folder.toList ++ front.flatMap (· ++ ['/']), by simp⟩
    · exact ⟨folder.toList ++ '/' :: front.flatMap (· ++ ['/']), by simp⟩
  have htrimmed : trimmed path = path.toList := by
    rw [trimmed, houter, List.reverse_append, hlast.trimTail, List.reverse_append,
      List.reverse_reverse, List.reverse_reverse]
  rw [← hpath]
  refine ⟨⟨hpath ▸ isAbsolute_push hfolder _, htrimmed⟩, ?_⟩
  unfold parent?
  simp only
  rw [if_neg]
  · exact ⟨_, rfl⟩
  · simp only [htrimmed, houter, Bool.or_eq_true, decide_eq_true_iff, List.append_eq_nil_iff]
    rintro (⟨-, hnil⟩ | hroot)
    · exact hlast.ne_nil hnil
    · have hmem : last.getLast hlast.ne_nil ∈ outer ++ last := by simp
      rw [hroot, List.mem_singleton] at hmem
      exact hlast.no_separator (hmem ▸ List.getLast_mem hlast.ne_nil)

end DsdlHeaders.Path
