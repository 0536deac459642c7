import DsdlHeaders.Proofs.Template.Plain
import DsdlHeaders.Template.StmtReader

/-!
# Reading literal text and outputs

What is written by a text in statement notation that holds nothing but literal text and outputs.

* **Tokens.** A name is read up to the first character that cannot belong to it (`token?_name`).
  `tokensUntil_token` and `tokensUntil_closing` are the two steps up to a closing delimiter.
* **Characters.** `Shows names s text` says character by character what a text shows: a character
  at which nothing opens shows itself, an output shows its value.
* **Statements.** Such a text has parts (`Shows.exists_parts`), the parts are statements, and
  running these writes what was shown (`Displays.exists_statements`).
-/

namespace DsdlHeaders.Template

open Text

/-! ## Tokens -/

/-- No symbol starts with the first character of a name. -/
theorem Symbol.ofChar?_of_isNameStart {c : Char} (h : isNameStart c = true) :
    Symbol.ofChar? c = none := by
  unfold Symbol.ofChar?
  split
  all_goals first | rfl | exact absurd h (by decide)

/-- No symbol of two characters starts with the first character of a name. -/
theorem Symbol.ofPair?_of_isNameStart {c : Char} (h : isNameStart c = true) (d : Char) :
    Symbol.ofPair? c d = none := by
  unfold Symbol.ofPair?
  split
  all_goals first | rfl | exact absurd h (by decide)

/-- No number starts with the first character of a name. -/
theorem isDigit_of_isNameStart {c : Char} (h : isNameStart c = true) : isDigit c = false := by
  rw [Bool.eq_false_iff]
  intro hdigit
  simp only [isDigit, Bool.and_eq_true, decide_eq_true_eq, Char.le_def,
    UInt32.le_iff_toNat_le] at hdigit
  simp only [isNameStart, isLetter, Bool.or_eq_true, Bool.and_eq_true, decide_eq_true_eq,
    beq_iff_eq, Char.le_def, UInt32.le_iff_toNat_le] at h
  have hnine : ('9' : Char).val.toNat = 57 := rfl
  have hlower : ('a' : Char).val.toNat = 97 := rfl
  have hupper : ('A' : Char).val.toNat = 65 := rfl
  rcases h with (h | h) | rfl
  · omega
  · omega
  · exact absurd hdigit.2 (by decide)

/-- No gap holds the first character of a name. -/
theorem isTokenGap_of_isNameStart {c : Char} (h : isNameStart c = true) : isTokenGap c = false := by
  rw [Bool.eq_false_iff]
  intro hgap
  simp only [isTokenGap, Bool.or_eq_true, beq_iff_eq] at hgap
  rcases hgap with (((rfl | rfl) | rfl) | rfl) | rfl
  all_goals exact absurd h (by decide)

/-- A name is read up to the first character that cannot belong to it. -/
theorem token?_name {c d : Char} {s rest : List Char} (hc : isNameStart c = true)
    (hs : ∀ a ∈ s, isNamePart a = true) (hd : isNamePart d = false) :
    token? (c :: (s ++ d :: rest)) = some (.name (String.ofList (c :: s)), d :: rest) := by
  have hpair : (s ++ d :: rest).head?.bind (Symbol.ofPair? c) = none := by
    rw [Option.bind_eq_none_iff]
    exact fun a _ => Symbol.ofPair?_of_isNameStart hc a
  have hquote : ¬ (c = '"' ∨ c = '\'') := by
    rintro (rfl | rfl) <;> exact absurd hc (by decide)
  have htake : (s ++ d :: rest).takeWhile isNamePart = s := by
    rw [List.takeWhile_append_of_pos hs, List.takeWhile_cons_of_neg (by simp [hd]), List.append_nil]
  have hdrop : (s ++ d :: rest).dropWhile isNamePart = d :: rest := by
    rw [List.dropWhile_append_of_pos hs, List.dropWhile_cons_of_neg (by simp [hd])]
  simp only [token?, hpair, Symbol.ofChar?_of_isNameStart hc, Bool.or_eq_true, decide_eq_true_eq,
    hquote, if_false, isDigit_of_isNameStart hc, Bool.false_eq_true, hc, if_true, htake, hdrop]

/-- Without escapes, quoted text ends at the first quote. -/
theorem quotedSpan_append {quote : Char} {s : List Char} (hquote : quote ∉ s) (hescape : '\\' ∉ s)
    (hne : quote ≠ '\\') (rest : List Char) :
    quotedSpan quote (s ++ quote :: rest) = some (s, rest) := by
  induction s with
  | nil => rw [List.nil_append, quotedSpan.eq_3 _ _ _ (fun _ _ h => absurd h hne), if_pos rfl]
  | cons c s ih =>
    have hc : c ≠ quote := (List.ne_of_not_mem_cons hquote).symm
    have hplain : c ≠ '\\' := (List.ne_of_not_mem_cons hescape).symm
    have hlater := ih (List.not_mem_of_not_mem_cons hquote) (List.not_mem_of_not_mem_cons hescape)
    rw [List.cons_append, quotedSpan.eq_3 _ _ _ (fun _ _ h => absurd h hplain), if_neg hc, hlater,
      Option.map_some]

/-- Text without escapes stands for itself. -/
theorem unescape_of_not_mem {s : List Char} (h : '\\' ∉ s) : unescape s = some s := by
  induction s with
  | nil => rw [unescape]
  | cons c s ih =>
    have hplain : c ≠ '\\' := (List.ne_of_not_mem_cons h).symm
    have hlater := ih (List.not_mem_of_not_mem_cons h)
    rw [unescape.eq_3 _ _ (fun h => absurd h hplain), hlater, Option.map_some]

/-- A text between quotes, without escapes. -/
theorem token?_text {s : List Char} (hquote : '"' ∉ s) (hescape : '\\' ∉ s) (rest : List Char) :
    token? ('"' :: (s ++ '"' :: rest)) = some (.text (String.ofList s), rest) := by
  have hpair : (s ++ '"' :: rest).head?.bind (Symbol.ofPair? '"') = none := by
    rw [Option.bind_eq_none_iff]
    exact fun a _ => rfl
  have hsymbol : Symbol.ofChar? '"' = none := rfl
  have hspan := quotedSpan_append hquote hescape (by decide) rest
  simp only [token?, hpair, hsymbol, decide_true, Bool.true_or, if_true, hspan,
    unescape_of_not_mem hescape, Option.bind_eq_bind, Option.bind_some]

/-- Tokens up to the closing delimiter: first a gap is passed over, then the delimiter or a token is
read. -/
theorem tokensUntil_eq (kind : Tagged) (depth : Int) (s : List Char) :
    tokensUntil kind depth s =
      match s.dropWhile isTokenGap with
      | [] => none
      | c :: rest =>
        match closingAt? kind depth (c :: rest) with
        | some closed => some ([], closed)
        | none => (token? (c :: rest)).bind fun found =>
          (tokensUntil kind (depth + found.1.opens) found.2).map fun later =>
            (found.1 :: later.1, later.2) := by
  rw [tokensUntil]
  split
  · rename_i hgap
    rw [hgap]
  · rename_i c rest hgap
    dsimp only
    rw [hgap]
    dsimp only
    cases closingAt? kind depth (c :: rest) with
    | some closed => rfl
    | none =>
      dsimp only
      split
      · rename_i htoken
        rw [htoken, Option.bind_none]
      · rename_i found htoken
        rw [htoken, Option.bind_some]

/-- A gap before a token counts for nothing. -/
theorem tokensUntil_gap {kind : Tagged} {depth : Int} {c : Char} (hc : isTokenGap c = true)
    (s : List Char) : tokensUntil kind depth (c :: s) = tokensUntil kind depth s := by
  rw [tokensUntil_eq, List.dropWhile_cons_of_pos hc, ← tokensUntil_eq]

/-- A token that is no bracket, before the closing delimiter. -/
theorem tokensUntil_token {kind : Tagged} {depth : Int} {c : Char} {s rest : List Char}
    {token : Token} (hc : isTokenGap c = false) (hopen : closing? kind (c :: s) = none)
    (htoken : token? (c :: s) = some (token, rest)) (hbracket : token.opens = 0) :
    tokensUntil kind depth (c :: s) = (tokensUntil kind depth rest).map fun later =>
      (token :: later.1, later.2) := by
  have hat : closingAt? kind depth (c :: s) = none := by
    unfold closingAt?
    rw [hopen, ite_self]
  rw [tokensUntil_eq, List.dropWhile_cons_of_neg (by simp [hc])]
  dsimp only
  rw [hat, htoken, Option.bind_some, hbracket, Int.add_zero]

/-- The closing delimiter outside all brackets. -/
theorem tokensUntil_closing {kind : Tagged} {c : Char} {s rest : List Char} {trimmed : Bool}
    (hc : isTokenGap c = false) (hclosing : closing? kind (c :: s) = some (trimmed, rest)) :
    tokensUntil kind 0 (c :: s) = some ([], trimmed, rest) := by
  have hat : closingAt? kind 0 (c :: s) = some (trimmed, rest) := hclosing
  rw [tokensUntil_eq, List.dropWhile_cons_of_neg (by simp [hc])]
  dsimp only
  rw [hat]

/-- Nothing closes where a name starts. -/
theorem closing?_of_isNameStart {c : Char} (h : isNameStart c = true) (kind : Tagged)
    (s : List Char) : closing? kind (c :: s) = none := by
  unfold closing?
  split
  all_goals first | rfl | skip
  all_goals
    rename_i heq
    obtain ⟨rfl, -⟩ := List.cons.inj heq
    exact absurd h (by decide)

/-! ## Parts -/

/-- At a character where nothing opens, literal text goes on. -/
theorem partsFrom_literal {c : Char} {rest : List Char} (h : opening? (c :: rest) = none)
    (pending : List Char) : partsFrom pending (c :: rest) = partsFrom (c :: pending) rest := by
  rw [partsFrom]
  split
  · rfl
  all_goals
    rename_i hopen
    exact absurd (h.symm.trans hopen) (by simp)

/-- An output that removes no blank characters around it. -/
theorem partsFrom_output {inner after : List Char} {tokens : List Token}
    (hsign : openingSign inner = (false, inner))
    (htokens : tokensUntil .output 0 inner = some (tokens, false, after)) (pending : List Char) :
    partsFrom pending ('\x7b' :: '\x7b' :: inner) =
      (partsFrom [] after).map (literalPart false pending ++ .tagged .output tokens :: ·) := by
  have hopening : opening? ('\x7b' :: '\x7b' :: inner) = some (.tagged .output, inner) := rfl
  rw [partsFrom]
  split
  · rename_i hopen
    exact absurd (hopening.symm.trans hopen) (by simp)
  · rename_i hopen
    exact absurd (hopening.symm.trans hopen) (by simp)
  · rename_i kind found hopen
    obtain ⟨rfl, rfl⟩ : Tagged.output = kind ∧ inner = found := by
      simpa using hopening.symm.trans hopen
    have hread : tokensUntil .output 0 (openingSign inner).2 = some (tokens, false, after) := by
      rw [hsign]
      exact htokens
    split
    · rename_i hnone
      exact absurd (hread.symm.trans hnone) (by simp)
    · rename_i read trimmed later hfound
      obtain ⟨rfl, rfl, rfl⟩ : tokens = read ∧ false = trimmed ∧ after = later := by
        simpa using hread.symm.trans hfound
      dsimp only
      rw [hsign]
      rfl

/-! ## Outputs of texts -/

/-- The tokens of an expression whose value is a text. -/
def Tells (names : Bindings) (tokens : List Token) (text : String) : Prop :=
  ∃ e, Reader.finished (Reader.expression maxNesting tokens) = some e ∧
    e.value? names = some (.text text)

/-- What a text in statement notation shows, character by character. -/
inductive Shows (names : Bindings) : List Char → List Char → Prop where
  | nil : Shows names [] []
  | literal {c : Char} {rest text : List Char} (hopen : opening? (c :: rest) = none)
    (hrest : Shows names rest text) : Shows names (c :: rest) (c :: text)
  | output {inner after text : List Char} {tokens : List Token} {value : String}
    (hsign : openingSign inner = (false, inner))
    (htokens : tokensUntil .output 0 inner = some (tokens, false, after))
    (htells : Tells names tokens value) (hafter : Shows names after text) :
    Shows names ('\x7b' :: '\x7b' :: inner) (value.toList ++ text)

/-- What parts show. -/
inductive Displays (names : Bindings) : List Part → List Char → Prop where
  | nil : Displays names [] []
  | literal (s : List Char) {rest : List Part} {text : List Char}
    (hrest : Displays names rest text) : Displays names (.literal s :: rest) (s ++ text)
  | output {tokens : List Token} {value : String} {rest : List Part} {text : List Char}
    (htells : Tells names tokens value) (hrest : Displays names rest text) :
    Displays names (.tagged .output tokens :: rest) (value.toList ++ text)

variable {names : Bindings}

/-- Literal text before other parts is shown before them. -/
theorem Displays.literalPart {rest : List Part} {text : List Char}
    (hrest : Displays names rest text) (pending : List Char) :
    Displays names (Template.literalPart false pending ++ rest) (pending.reverse ++ text) := by
  unfold Template.literalPart
  simp only [Bool.false_eq_true, if_false]
  by_cases hpending : pending.reverse = []
  · rw [if_pos hpending, hpending]
    exact hrest
  · rw [if_neg hpending]
    exact .literal _ hrest

/-- A text that shows something has parts that show it. -/
theorem Shows.exists_parts {s text : List Char} (h : Shows names s text) (pending : List Char) :
    ∃ found, partsFrom pending s = some found ∧ Displays names found (pending.reverse ++ text) := by
  induction h generalizing pending with
  | nil =>
    refine ⟨literalPart false pending, by rw [partsFrom], ?_⟩
    have hparts := (Displays.nil : Displays names [] []).literalPart pending
    rwa [List.append_nil] at hparts
  | @literal c rest text hopen _ ih =>
    obtain ⟨found, hfound, hdisplays⟩ := ih (c :: pending)
    refine ⟨found, by rw [partsFrom_literal hopen, hfound], ?_⟩
    rwa [List.reverse_cons, List.append_assoc] at hdisplays
  | output hsign htokens htells _ ih =>
    obtain ⟨found, hfound, hdisplays⟩ := ih []
    refine ⟨_, by rw [partsFrom_output hsign htokens, hfound, Option.map_some], ?_⟩
    exact (Displays.output htells hdisplays).literalPart pending

/-- Reading parts that show something adds statements that write it. -/
theorem Displays.exists_statements (invoke : Invoke) {scope : Scope} {found : List Part}
    {text : List Char} (h : Displays scope.names found text) (before : List Stmt) :
    ∃ body, found.foldlM Nesting.read ⟨[], before⟩ = some ⟨[], body.reverse ++ before⟩ ∧
      Writes scope invoke body (String.ofList text) := by
  induction h generalizing before with
  | nil => exact ⟨[], rfl, Writes.nil⟩
  | @literal s rest text _ ih =>
    obtain ⟨body, hread, hwrites⟩ := ih (.text (String.ofList s) :: before)
    refine ⟨.text (String.ofList s) :: body, ?_, ?_⟩
    · rw [List.foldlM_cons, List.reverse_cons, List.append_assoc]
      exact hread
    · rw [String.ofList_append]
      exact Writes.cons (Runs.text _) hwrites
  | @output tokens value rest text htells _ ih =>
    obtain ⟨e, he, hvalue⟩ := htells
    obtain ⟨body, hread, hwrites⟩ := ih (.output e :: before)
    refine ⟨.output e :: body, ?_, ?_⟩
    · have hpart : Nesting.read ⟨[], before⟩ (.tagged .output tokens) =
          some ⟨[], .output e :: before⟩ := by
        change (Reader.finished (Reader.expression maxNesting tokens)).map _ = _
        rw [he]
        rfl
      rw [List.foldlM_cons, hpart, List.reverse_cons, List.append_assoc]
      exact hread
    · rw [String.ofList_append, String.ofList_toList]
      refine Writes.cons (Runs.of_plain? ?_) hwrites
      simp [Stmt.plain?, hvalue, Value.plain?]

/-- A text that shows something is read as statements that write it. -/
theorem Shows.exists_statements (invoke : Invoke) {scope : Scope} {s text : List Char}
    (h : Shows scope.names s text) :
    ∃ body, statements s = some body ∧ Writes scope invoke body (String.ofList text) := by
  obtain ⟨found, hfound, hdisplays⟩ := h.exists_parts []
  obtain ⟨body, hread, hwrites⟩ := hdisplays.exists_statements invoke []
  refine ⟨body, ?_, hwrites⟩
  have hparts : parts s = some found := hfound
  have hnested : found.foldlM Nesting.read Nesting.start = some ⟨[], body.reverse ++ []⟩ := hread
  unfold statements ofParts
  rw [hparts, Option.bind_some, hnested]
  simp [Nesting.finish]

end DsdlHeaders.Template
