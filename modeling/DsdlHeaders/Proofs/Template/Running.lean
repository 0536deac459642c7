import DsdlHeaders.Proofs.Template.Walking

/-!
# Rules for expressions and statements

What each kind of expression and statement does, by the rules of `Runs`. A rule asks only for what
its parts do, so a whole template is covered by going through it once.

* **Expressions.** `Gives scope invoke e value` says that an expression has a value wherever the
  scope holds. There is one rule for each kind of expression that headers need.
* **Statements.** `Writes scope invoke body text` says that statements write a text.
* **Calls.** A routine that can be called (`Routine.Takes`) runs its body in a scope of its
  parameters above its closure (`Routine.Takes.call_run`). The text that the body writes is the
  value of the call (`Runs.routine`).
-/

namespace DsdlHeaders.Template

open Eval

/-- An expression has a value wherever the scope holds. -/
def Gives (scope : Scope) (invoke : Invoke) (e : Expr) (value : Value) : Prop :=
  Runs scope (evaluate invoke e) value ""

/-- Statements write a text wherever the scope holds. -/
def Writes (scope : Scope) (invoke : Invoke) (body : List Stmt) (text : String) : Prop :=
  Runs scope (executeAll invoke body) () text

variable {scope : Scope} {invoke : Invoke}

/-! ## Values -/

/-- Values that print without asking the state: the values that headers are made of. -/
inductive Plain : Value → String → Prop where
  | text (s : String) : Plain (.text s) s
  | word (n : Nat) : Plain (.word n) (toString n)
  | integer (n : Int) : Plain (.integer n) (toString n)

/-- The text of a plain value. -/
theorem Plain.printed {value : Value} {text : String} (h : Plain value text) :
    Runs scope (printed value) text "" := by
  apply Runs.of_run
  intro machine
  cases h <;> rfl

/-- Whether a value counts as true, when that does not depend on a stream. -/
theorem Runs.truth {value : Value} (hmissing : value.isMissing = false)
    (hlazy : value.isLazy = false) : Runs scope (truth value) value.isTrue "" := by
  apply Runs.of_run
  intro machine
  simp only [Template.truth, present, Template.isTrue, hmissing, hlazy, Bool.false_eq_true,
    if_false]
  rfl

/-! ## Expressions -/

/-- A name in sight. -/
theorem Gives.name {name : String} {value : Value} (h : scope.names.find? name = some value) :
    Gives scope invoke (.name name) value := by
  intro machine hholds
  have hturn := (hholds.lasting name value h).2
  have hlookup := Machine.lookup?_of_meaning? (hholds.known name value h) hturn
  refine ⟨[], ?_⟩
  rw [evaluate, run_bind_of_ok (StateT.run_get machine), hlookup]
  simp [Machine.after]
  rfl

/-- A text as it stands. -/
theorem Gives.text (s : String) : Gives scope invoke (.text s) (.text s) := by
  unfold Gives
  rw [evaluate]
  exact Runs.pure _

/-- A number as it stands. -/
theorem Gives.integer (n : Nat) : Gives scope invoke (.integer n) (.word n) := by
  unfold Gives
  rw [evaluate]
  exact Runs.pure _

/-- The value `none`. -/
theorem Gives.nothing : Gives scope invoke .nothing .nothing := by
  unfold Gives
  rw [evaluate]
  exact Runs.pure _

/-- A member of a map. -/
theorem Gives.member {object : Expr} {found : List (Value × Value)} {name : String} {value : Value}
    (hobject : Gives scope invoke object (.entries false found))
    (hmember : Value.lookup? (.text name) found = some value) (hturn : value.isTurn = false) :
    Gives scope invoke (.member object name) value := by
  unfold Gives
  rw [evaluate]
  refine Runs.then hobject (Runs.of_run fun machine => ?_)
  have hpart : memberOf (.entries false found) name =
      partOf (.entries false found) (some value) := by
    rw [← hmember]
    rfl
  rw [hpart]
  change Except.ok (machine.present value, machine) = _
  rw [machine.present_of_not_isTurn hturn]

/-- The opposite of a condition. -/
theorem Gives.not {e : Expr} {value : Value} (h : Gives scope invoke e value)
    (hmissing : value.isMissing = false) (hlazy : value.isLazy = false) :
    Gives scope invoke (.not e) (.boolean !value.isTrue) := by
  unfold Gives
  rw [evaluate]
  exact Runs.then h (Runs.then (Runs.truth hmissing hlazy) (Runs.pure _))

/-- One of two expressions. -/
theorem Gives.choose {condition yes no : Expr} {value result : Value}
    (hcondition : Gives scope invoke condition value) (hmissing : value.isMissing = false)
    (hlazy : value.isLazy = false)
    (hbranch : Gives scope invoke (if value.isTrue then yes else no) result) :
    Gives scope invoke (.choose condition yes no) result := by
  unfold Gives
  rw [evaluate]
  refine Runs.then hcondition (Runs.then (Runs.truth hmissing hlazy) ?_)
  unfold Gives at hbranch
  split
  · rwa [if_pos ‹_›] at hbranch
  · rwa [if_neg ‹_›] at hbranch

/-- Expressions with their values, none of them spread. -/
inductive GivesAll (scope : Scope) (invoke : Invoke) : List Expr → List Value → Prop where
  | nil : GivesAll scope invoke [] []
  | cons {e : Expr} {es : List Expr} {value : Value} {values : List Value}
    (hspread : ∀ items, e ≠ .spread items) (hhead : Gives scope invoke e value)
    (htail : GivesAll scope invoke es values) : GivesAll scope invoke (e :: es) (value :: values)

/-- The values of a list of expressions. -/
theorem GivesAll.evaluateAll {es : List Expr} {values : List Value}
    (h : GivesAll scope invoke es values) :
    Runs scope (evaluateAll invoke es) values "" := by
  induction h with
  | nil => exact Runs.pure _
  | cons _ hhead _ ih =>
    rw [Template.evaluateAll]
    exact Runs.then hhead (Runs.then ih (Runs.pure _))

/-- A list of expressions. -/
theorem Gives.list {es : List Expr} {values : List Value} (h : GivesAll scope invoke es values) :
    Gives scope invoke (.list es) (.list values) := by
  unfold Gives
  rw [evaluate]
  exact Runs.then h.evaluateAll (Runs.pure _)

/-- The values of arguments. -/
theorem GivesAll.evaluateArguments {es : List Expr} {values : List Value}
    (h : GivesAll scope invoke es values) :
    Runs scope (evaluateArguments invoke es) (values.map fun value => (false, value)) "" := by
  induction h with
  | nil => exact Runs.pure _
  | cons hspread hhead _ ih =>
    rw [Template.evaluateArguments]
    · exact Runs.then hhead (Runs.then ih (Runs.pure _))
    · exact hspread

/-- Arguments without keywords are handed on as they are. -/
theorem assembled_run (values : List Value) :
    Runs scope (assembled (values.map fun value => (false, value)) [] []) values "" := by
  have hspread : Runs scope (spreadOut (values.map fun value => (false, value))) values "" := by
    induction values with
    | nil => exact Runs.pure _
    | cons value values ih =>
      rw [List.map_cons, spreadOut]
      exact Runs.then (Runs.pure [value]) (Runs.then ih (Runs.pure _))
  exact Runs.then (Runs.pure []) (Runs.then hspread (Runs.pure values))

/-- A call by name. -/
theorem Gives.call {name : String} {callee result : Value} {arguments : List Expr}
    {values : List Value} (hname : scope.names.find? name = some callee) (hsuper : name ≠ "super")
    (harguments : GivesAll scope invoke arguments values)
    (hcall : Runs scope (callValue invoke callee values) result "") :
    Gives scope invoke (.call (.name name) arguments [] []) result := by
  unfold Gives
  rw [evaluate]
  refine Runs.then harguments.evaluateArguments (Runs.then (Runs.pure []) ?_)
  refine Runs.then (assembled_run values) ?_
  intro machine h
  have hlasting := h.lasting name callee hname
  have hlookup := Machine.lookup?_of_meaning? (h.known name callee hname) hlasting.2
  unfold callName
  rw [run_bind_of_ok (StateT.run_get machine), if_neg hsuper, if_neg hlasting.1, hlookup]
  exact hcall machine h

/-- A filter. -/
theorem Gives.filter {name : String} {operand : Expr} {value result : Value} {arguments : List Expr}
    {values : List Value} (hoperand : Gives scope invoke operand value)
    (harguments : GivesAll scope invoke arguments values)
    (hfilter : Runs scope (applyFilter name (value :: values)) result "") :
    Gives scope invoke (.filter name operand arguments [] []) result := by
  unfold Gives
  rw [evaluate]
  refine Runs.then hoperand (Runs.then harguments.evaluateArguments (Runs.then (Runs.pure []) ?_))
  exact Runs.then (assembled_run values) hfilter

/-- A comparison of two values. -/
theorem Gives.compare {first second : Expr} {a b : Value} {link : Comparison} {holds : Bool}
    (hfirst : Gives scope invoke first a) (hsecond : Gives scope invoke second b)
    (hcompared : Runs scope (compared link a b) holds "") :
    Gives scope invoke (.compare first [link] [second]) (.boolean holds) := by
  unfold Gives
  rw [evaluate]
  refine Runs.then hfirst (Runs.then ?_ (Runs.pure _))
  rw [evaluateChain]
  refine Runs.then hsecond (Runs.then hcompared ?_)
  cases holds
  · exact Runs.pure _
  · exact Runs.pure _

/-- An operator between two values. -/
theorem Gives.binary {op : BinaryOp} {first second : Expr} {a b result : Value}
    (hfirst : Gives scope invoke first a) (hsecond : Gives scope invoke second b)
    (happly : Runs scope (applyBinary op a b) result "") :
    Gives scope invoke (.binary op first second) result := by
  unfold Gives
  rw [evaluate]
  exact Runs.then hfirst (Runs.then hsecond happly)

/-! ## Statements -/

/-- No statements. -/
theorem Writes.nil : Writes scope invoke [] "" := by
  unfold Writes
  rw [executeAll]
  exact Runs.pure _

/-- One statement before others. -/
theorem Writes.cons {stmt : Stmt} {rest : List Stmt} {s t : String}
    (hstmt : Runs scope (execute invoke stmt) () s) (hrest : Writes scope invoke rest t) :
    Writes scope invoke (stmt :: rest) (s ++ t) := by
  unfold Writes
  rw [executeAll]
  exact Runs.bind hstmt hrest

/-- Writing. -/
theorem Runs.write (s : String) : Runs scope (write s) () s := by
  intro machine _
  refine ⟨[], ?_⟩
  simp only [Machine.after, List.append_nil]
  rfl

/-- Literal text. -/
theorem Runs.text (s : String) : Runs scope (execute invoke (.text s)) () s := by
  rw [execute]
  exact Runs.write s

/-- The value of an output that is more than a loop which is run again. -/
theorem outputValue_eq {e : Expr}
    (hcall : ∀ items, e ≠ .call (.name loopName) [.spread items] [] []) :
    outputValue invoke e = evaluate invoke e := by
  unfold outputValue
  split
  · rename_i f items
    rw [if_neg]
    rintro rfl
    exact hcall items rfl
  · rfl

/-- An output that is more than a loop which is run again. -/
theorem Runs.output {e : Expr} {value : Value} {text : String} (h : Gives scope invoke e value)
    (hplain : Plain value text)
    (hcall : ∀ items, e ≠ .call (.name loopName) [.spread items] [] []) :
    Runs scope (execute invoke (.output e)) () text := by
  rw [execute, outputValue_eq hcall]
  exact Runs.then h (Runs.then hplain.printed (Runs.write text))

/-- One of two lists of statements. -/
theorem Runs.choose {condition : Expr} {yes no : List Stmt} {value : Value} {text : String}
    (hcondition : Gives scope invoke condition value) (hmissing : value.isMissing = false)
    (hlazy : value.isLazy = false)
    (hbranch : Writes scope invoke (if value.isTrue then yes else no) text) :
    Runs scope (execute invoke (.choose condition yes no)) () text := by
  rw [execute]
  refine Runs.then hcondition (Runs.then (Runs.truth hmissing hlazy) ?_)
  unfold Writes at hbranch
  split
  · rwa [if_pos ‹_›] at hbranch
  · rwa [if_neg ‹_›] at hbranch

/-! ## Functions, filters and operators -/

/-- The number of items of a list. -/
theorem Runs.len (items : List Value) :
    Runs scope (callValue invoke (.function .len) [.list items]) (.word items.length) "" :=
  Runs.of_run fun _ => rfl

/-- The items of a list with their indexes. -/
theorem Runs.enumerate (items : List Value) :
    Runs scope (callValue invoke (.function .enumerate) [.list items])
      (.list (indexedItems 0 items)) "" :=
  Runs.of_run fun _ => rfl

/-- A text with its lines indented. -/
theorem Runs.indent (text : String) :
    Runs scope (callValue invoke (.function .indent) [.text text])
      (.text (indented defaultIndent text)) "" :=
  Runs.of_run fun _ => rfl

/-- A list the other way round. -/
theorem Runs.reverse (items : List Value) :
    Runs scope (applyFilter "reverse" [.list items]) (.derived 0 items.reverse) "" :=
  Runs.of_run fun _ => rfl

/-- Two texts one after the other. -/
theorem Runs.concat (s t : String) :
    Runs scope (applyBinary .concat (.text s) (.text t)) (.text (s ++ t)) "" :=
  Runs.of_run fun _ => rfl

/-- Are two texts the same? -/
theorem Runs.equalTexts (s t : String) :
    Runs scope (compared .equal (.text s) (.text t)) (s == t) "" :=
  Runs.of_run fun _ => rfl

/-- Words of some bits have more than two values. -/
theorem one_lt_wordSize {bits : Nat} (h : bits ≠ 0) : 1 < Text.wordSize bits :=
  Nat.one_lt_two_pow h

/-- Integers of 128 bits. -/
theorem Value.fitsInteger_iff {n : Int} : fitsInteger n = true ↔
    -(Text.wordSize 127 : Int) ≤ n ∧ n < Text.wordSize 127 := by
  unfold fitsInteger
  rw [Bool.and_eq_true, decide_eq_true_iff, decide_eq_true_iff]

/-- Two whole numbers, not both of them words, as integers if they fit. -/
theorem Value.integers?_of_integer (n : Int) (m : Nat) : integers? (.integer n) (.word m) =
    if (fitsInteger n && fitsInteger m) = true then some (.integers n m) else none := rfl

/-- Two words as integers if they fit. -/
theorem Value.integers?_of_word {n m : Nat} (hm : ¬ Text.wordSize 64 ≤ m) :
    integers? (.word n) (.word m) =
      if (fitsInteger n && fitsInteger m) = true then some (.integers n m) else none := by
  unfold integers?
  simp only [integer?, Option.bind_eq_bind, Option.bind_some]
  split
  · rename_i hboth
    rw [Bool.and_eq_true, decide_eq_true_iff, decide_eq_true_iff] at hboth
    exact absurd hboth.2 hm
  · rfl

/-- A whole number equals a word that fits if their values are equal. -/
theorem Value.equalNumbers_word (n : Int) {m : Nat} (hm : fitsInteger m = true) :
    equalNumbers (.integer n) (.word m) = (n == m) := by
  unfold equalNumbers pair?
  simp only
  rw [integers?_of_integer]
  by_cases hsize : fitsInteger n = true
  · rw [if_pos (by rw [hsize, hm]; rfl)]
  · rw [if_neg (by rw [Bool.and_eq_true]; exact fun hboth => hsize hboth.1)]
    have hne : n ≠ m := by
      rintro rfl
      exact hsize hm
    simp [hne]

/-- Is an index zero? -/
theorem Runs.isZero (n : Nat) :
    Runs scope (compared .equal (.integer n) (.word 0)) (n == 0) "" := by
  apply Runs.of_run
  intro machine
  have hdepth : maxValueDepth = (maxValueDepth - 1) + 1 := by
    have hpos : 1 < maxValueDepth := one_lt_wordSize (by omega)
    omega
  have hequal : equalValues (.integer n) (.word 0) =
      Pure.pure (Value.equalNumbers (.integer n) (.word 0)) := by
    unfold equalValues
    rw [hdepth]
    rfl
  have hzero : Value.fitsInteger ((0 : Nat) : Int) = true := by
    have hpos : 1 < Text.wordSize 127 := one_lt_wordSize (by omega)
    exact Value.fitsInteger_iff.mpr (by omega)
  have hsame : ((n : Int) == ((0 : Nat) : Int)) = (n == 0) := by
    rw [Bool.eq_iff_iff, beq_iff_eq, beq_iff_eq]
    omega
  rw [Value.equalNumbers_word n hzero, hsame] at hequal
  unfold compared
  simp only [hequal]
  rfl

/-- A count less one. -/
theorem Value.subtract_one {n : Nat} (h : n < Text.wordSize 127) :
    BinaryOp.subtract.apply (.word n) (.word 1) = some (.integer ((n : Int) - 1)) := by
  have hpos : 1 < Text.wordSize 127 := one_lt_wordSize (by omega)
  have hcount : fitsInteger n = true := fitsInteger_iff.mpr (by omega)
  have hone : fitsInteger ((1 : Nat) : Int) = true := fitsInteger_iff.mpr (by omega)
  have hresult : fitsInteger ((n : Int) - ((1 : Nat) : Int)) = true :=
    fitsInteger_iff.mpr (by omega)
  have hword : ¬ (Text.wordSize 64 ≤ 1) := by
    have hsize : 1 < Text.wordSize 64 := one_lt_wordSize (by omega)
    omega
  unfold BinaryOp.apply arithmetic pair?
  simp only
  rw [integers?_of_word hword, if_pos (by rw [hcount, hone]; rfl)]
  exact if_pos hresult

/-- One less than a count. -/
theorem Runs.pred {n : Nat} (h : n < Text.wordSize 127) :
    Runs scope (applyBinary .subtract (.word n) (.word 1)) (.integer ((n : Int) - 1)) "" := by
  apply Runs.of_run
  intro machine
  unfold applyBinary
  rw [Value.subtract_one h]
  rfl

/-! ## Walks over values -/

/-- A walk over a list. -/
theorem Walks.list {e : Expr} {items : List Value} (h : Gives scope invoke e (.list items)) :
    Walks scope (evaluate invoke e) items := by
  intro machine hholds
  obtain ⟨made, hmade⟩ := h machine hholds
  exact ⟨_, made, .items items, hmade, rfl, rfl, .items (List.prefix_append _ _)⟩

/-- A walk over items that were computed. -/
theorem Walks.derived {e : Expr} {sums : Nat} {items : List Value}
    (h : Gives scope invoke e (.derived sums items)) :
    Walks scope (evaluate invoke e) items := by
  intro machine hholds
  obtain ⟨made, hmade⟩ := h machine hholds
  exact ⟨_, made, .items items, hmade, rfl, rfl, .items (List.prefix_append _ _)⟩

/-- A walk over the items of a list, numbered. -/
theorem Walks.numbered {e : Expr} {name : String} {items : List Value}
    (hname : scope.names.find? name = some (.function .enumLastValue)) (hsuper : name ≠ "super")
    (hspread : ∀ parts, e ≠ .spread parts) (h : Gives scope invoke e (.list items)) :
    Walks scope (evaluate invoke (.call (.name name) [e] [] [])) (numberedItems 0 items) := by
  intro machine hholds
  obtain ⟨made, hmade⟩ := (GivesAll.cons hspread h .nil).evaluateArguments machine hholds
  have hlasting := hholds.lasting name _ hname
  have hafter := hholds.after made ""
  have hlookup := Machine.lookup?_of_meaning? (hafter.known name _ hname) hlasting.2
  refine ⟨.stream (machine.streams ++ made).length, made ++ [⟨.items items, none, 0⟩],
    .stream (machine.streams ++ made).length, ?_, rfl, rfl, ?_⟩
  · have hempty : (evaluateAll invoke []).run (machine.after made "") =
        .ok ([], machine.after made "") := by
      rw [evaluateAll]
      rfl
    have hassembled : (assembled [(false, .list items)] [] []).run (machine.after made "") =
        .ok ([.list items], machine.after made "") := rfl
    rw [evaluate, run_bind_of_ok hmade, run_bind_of_ok hempty]
    change ((assembled [(false, .list items)] [] []) >>= _).run _ = _
    rw [run_bind_of_ok hassembled]
    unfold callName
    rw [run_bind_of_ok (StateT.run_get _), if_neg hsuper, if_neg hlasting.1, hlookup]
    change Except.ok _ = _
    simp [Machine.after]
  · rw [← List.append_assoc]
    exact .numbered (List.prefix_append _ _) ⟨items, rfl, rfl⟩

/-- Pulling from plain items. -/
theorem pull_items_run (rest : List Value) (machine : Machine) :
    (Eval.pull (.items rest)).run machine = .ok ((rest.head?, .items rest.tail), machine) := by
  have hpull : (Cursor.items rest).pull machine.streams =
      ⟨rest.head?, .items rest.tail, machine.streams⟩ := by
    unfold Cursor.pull
    obtain ⟨fuel, hfuel⟩ := two_le_reach (.items rest) machine.streams
    rw [hfuel, pullFor_items]
  have hrun : (Eval.pull (.items rest)).run machine =
      .ok ((((Cursor.items rest).pull machine.streams).item,
          ((Cursor.items rest).pull machine.streams).rest),
        { machine with streams := ((Cursor.items rest).pull machine.streams).streams }) := rfl
  rw [hrun, hpull]

/-- Visits that leave the state alone. -/
theorem visitNext_items_run {α β : Type} {visit : Value → Eval α} {item : β → Value}
    {result : β → α} (h : ∀ x machine, (visit (item x)).run machine = .ok (result x, machine))
    (xs : List β) (machine : Machine) :
    (visitNext visit xs.length (.items (xs.map item))).run machine =
      .ok (xs.map result, machine) := by
  induction xs with
  | nil => rfl
  | cons x xs ih =>
    rw [List.length_cons, visitNext, run_bind_of_ok (pull_items_run _ machine), List.map_cons,
      List.head?_cons, List.tail_cons]
    simp only
    rw [run_bind_of_ok (h x machine), run_bind_of_ok ih]
    rfl

/-- The items of a value for which a condition fails that leaves the state alone. -/
theorem itemsWhere_false_run {β : Type} {item : β → Value} {holds : β → Bool}
    {condition : Value → Eval Bool}
    (h : ∀ x machine, (condition (item x)).run machine = .ok (holds x, machine)) (xs : List β)
    (machine : Machine) :
    (itemsWhere false condition (.list (xs.map item))).run machine =
      .ok ((xs.filter fun x => !holds x).map item, machine) := by
  let visit : Value → Eval (Option Value) := fun item => do
    let passed ← condition item
    pure (if passed == false then some item else none)
  have hvisit : ∀ x machine, (visit (item x)).run machine =
      .ok (if holds x == false then some (item x) else none, machine) := by
    intro x machine
    change (condition (item x) >>= _).run machine = _
    rw [run_bind_of_ok (h x machine)]
    rfl
  have hall : (visitAll visit (.list (xs.map item))).run machine =
      .ok (xs.map fun x => if holds x == false then some (item x) else none, machine) := by
    have hopened : (opened (.list (xs.map item))).run machine =
        .ok (.items (xs.map item), machine) := rfl
    have hremaining : (remaining (.items (xs.map item))).run machine =
        .ok (xs.length, machine) := by
      obtain ⟨fuel, hfuel⟩ := two_le_reach (.items (xs.map item)) machine.streams
      change Except.ok (remainingFor _ (reach _ _) _, machine) = _
      rw [hfuel, remainingFor, List.length_map]
    unfold visitAll
    rw [run_bind_of_ok hopened, run_bind_of_ok hremaining]
    exact visitNext_items_run hvisit xs machine
  have hkept : (xs.map fun x => if holds x == false then some (item x) else none).filterMap id =
      (xs.filter fun x => !holds x).map item := by
    clear hall
    induction xs with
    | nil => rfl
    | cons x xs ih =>
      rw [List.map_cons, List.filterMap_cons, ih, List.filter_cons]
      cases holds x <;> rfl
  have hpresent : (present (.list (xs.map item))).run machine = .ok ((), machine) := rfl
  unfold itemsWhere
  rw [run_bind_of_ok hpresent, run_bind_of_ok hall, hkept]
  rfl

/-- The items of a list that lack a flag. -/
theorem Runs.rejectattr {β : Type} {item : β → Value} {flag : β → Bool}
    {found : β → List (Value × Value)} (hitem : ∀ x, item x = .entries false (found x))
    (hflag : ∀ x, Value.lookup? (.text "void") (found x) = some (.boolean (flag x)))
    (xs : List β) :
    Runs scope (applyFilter "rejectattr" [.list (xs.map item), .text "void"])
      (.list ((xs.filter fun x => !flag x).map item)) "" := by
  apply Runs.of_run
  intro machine
  have hpath : Text.splitOn '.' "void".toList = ["void".toList] := by decide
  have hdigits : Text.unsigned? (Text.wordSize 64) "void".toList = none := by decide
  have hpasses : ∀ x machine, (passes ["void".toList] none [] (item x)).run machine =
      .ok (flag x, machine) := by
    intro x machine
    have hmember : memberOf (item x) "void" = partOf (item x) (some (.boolean (flag x))) := by
      rw [← hflag x, hitem x]
      rfl
    unfold passes atPath
    rw [hdigits]
    simp only [String.ofList_toList]
    rw [hmember]
    rfl
  have hvalue : (required [.list (xs.map item), .text "void"]).run machine =
      .ok ((.list (xs.map item), [.text "void"]), machine) := rfl
  have hname : (required [.text "void"]).run machine = .ok ((.text "void", []), machine) := rfl
  have htext : (asText (.text "void")).run machine = .ok ("void", machine) := rfl
  have htest : (optional asText []).run machine = .ok ((none, []), machine) := rfl
  change (filterByMember false [.list (xs.map item), .text "void"]).run machine = _
  unfold filterByMember
  rw [run_bind_of_ok hvalue, run_bind_of_ok hname, run_bind_of_ok htext, run_bind_of_ok htest]
  simp only [Option.map_none, hpath]
  rw [run_bind_of_ok (itemsWhere_false_run hpasses xs machine)]
  rfl

/-! ## Calls of routines -/

/-- Names that are stored the last one first mean what the list says. -/
theorem Bindings.find?_foldr_insert (bindings found : Bindings) (name : String) :
    Bindings.find? (bindings.foldr (fun b all => Bindings.insert all b.1 b.2) found) name =
      (bindings.find? name).or (found.find? name) := by
  induction bindings with
  | nil => rfl
  | cons entry bindings ih =>
    obtain ⟨n, v⟩ := entry
    rw [List.foldr_cons, Bindings.find?_insert, ih, Bindings.find?]
    split <;> rfl

/-- The machine in which the body of a routine runs. -/
def Machine.called (machine : Machine) (closure : Option Nat) (names : Bindings) : Machine :=
  { machine with
    frames := [callFrame closure names]
    output := ""
    outer := machine.depth + callCost }

/-- The scope in which the body of a routine runs: its parameters above its closure. -/
def Scope.called (scope : Scope) (names closure : Bindings) : Scope where
  names := names ++ closure
  closures := scope.closures
  room := scope.room - (callCost + 1)

/-- The scope of a routine holds where its body runs. -/
theorem Scope.HoldsIn.called {machine : Machine} (h : scope.HoldsIn machine)
    (hroom : callCost + 1 ≤ scope.room) {names found closure : Bindings} {index : Nat}
    (hnames : names.Lasting) (hfound : ∀ name, found.find? name = names.find? name)
    (hclosure : scope.closures[index]? = some closure) (hlasting : closure.Lasting) :
    (scope.called names closure).HoldsIn (machine.called (some index) found) where
  lasting := hnames.append hlasting
  known name value hname := by
    have hclosed : (machine.called (some index) found).inClosure? (some index) name =
        closure.find? name := by
      change ((some index).bind (machine.closures[·]?)).bind (·.find? name) = _
      rw [h.closures, Option.bind_some, hclosure, Option.bind_some]
    have hframes : (machine.called (some index) found).inFrames?
        (machine.called (some index) found).frames name = some value := by
      change (found.find? name).or ((Machine.inLoop? _ _ name).or
        (((machine.called (some index) found).inClosure? (some index) name).or none)) = _
      have hloop : Machine.inLoop? (machine.called (some index) found)
          (callFrame (some index) found) name = none := by
        unfold Machine.inLoop?
        split <;> rfl
      rw [hloop, hclosed, hfound, Option.none_or, Option.or_none, ← Bindings.find?_append]
      exact hname
    unfold Machine.meaning?
    rw [hframes]
    rfl
  closures := h.closures
  room := by
    have hdepth := h.room
    change machine.depth + callCost + 1 + (scope.room - (callCost + 1)) ≤ maxDepth
    omega

/-- Parameters that are given by position have the values that are given. -/
theorem bindParameters_eq_ok {parameters : List String} {values : List Value}
    (h : parameters.length = values.length) : bindParameters [] parameters values = .ok values := by
  induction parameters generalizing values with
  | nil =>
    cases values with
    | nil => rfl
    | cons => exact absurd h (by simp)
  | cons parameter parameters ih =>
    cases values with
    | nil => exact absurd h (by simp)
    | cons value values =>
      have hlater : parameters.length = values.length := by simpa using h
      have hrest := ih hlater
      change (bindParameters [] parameters values >>= fun later => .ok (value :: later)) = _
      rw [hrest]
      rfl

/-- Storing parameters without defaults. -/
theorem storeParameters_run (invoke : Invoke) (machine : Machine) (closure : Option Nat)
    (entries found : Bindings) :
    (storeParameters invoke entries []).run (machine.called closure found) =
      .ok ((), machine.called closure
        (entries.foldl (fun all b => Bindings.insert all b.1 b.2) found)) := by
  induction entries generalizing found with
  | nil => rfl
  | cons entry entries ih =>
    obtain ⟨parameter, value⟩ := entry
    have hstore : (store parameter value).run (machine.called closure found) =
        .ok ((), machine.called closure (found.insert parameter value)) := rfl
    rw [storeParameters, run_bind_of_ok hstore, ih, List.foldl_cons]

/-- A routine that can be called in a scope: each of its parameters has a value by position, and the
scope has room for the call and knows the closure. -/
structure Routine.Takes (routine : Routine) (scope : Scope) (index : Nat) (closure : Bindings)
    (values : List Value) : Prop where
  room : callCost + 1 ≤ scope.room
  parameters : routine.parameters.length = values.length
  defaults : routine.defaults = []
  caller : routine.asksCaller = false
  keywords : ∀ found, values.getLast? ≠ some (.entries true found)
  known : scope.closures[index]? = some closure
  lasting : closure.Lasting
  names : Bindings.Lasting (routine.parameters.zip values)

/-- The end of a call: the caller goes on, and what was written is the result. -/
def returned (caller : Machine) : Eval Value := do
  let finished ← get
  set { finished with frames := caller.frames, output := caller.output, outer := caller.outer }
  pure (.text finished.output)

/-- What a call of a routine comes to: its body, in a machine in which its scope holds. -/
theorem Routine.Takes.call_run {routine : Routine} {index : Nat} {closure : Bindings}
    {values : List Value} (h : routine.Takes scope index closure values) {machine : Machine}
    (hholds : scope.HoldsIn machine) (levels : Nat) :
    ∃ found, (scope.called (routine.parameters.zip values) closure).HoldsIn
        (machine.called (some index) found) ∧
      (callValue (jump (levels + 1)) (.routine routine (some index)) values).run machine =
        (executeAll (jump levels) routine.body >>= fun _ => returned machine).run
          (machine.called (some index) found) := by
  have hbind : routine.bind values = .ok (values, []) := by
    have hsplit : splitKeywords values = (values, []) := by
      unfold splitKeywords
      split
      · exact absurd ‹_› (h.keywords _)
      · rfl
    unfold Routine.bind
    rw [hsplit]
    simp only
    rw [bindParameters_eq_ok h.parameters, h.caller]
    rfl
  refine ⟨(routine.parameters.zip values).foldr (fun b all => Bindings.insert all b.1 b.2) [],
    hholds.called h.room h.names (fun name => ?_) h.known h.lasting, ?_⟩
  · rw [Bindings.find?_foldr_insert (routine.parameters.zip values) []]
    exact Option.or_none
  · have hsettled : (settled (routine.bind values)).run machine = .ok ((values, []), machine) := by
      rw [hbind]
      rfl
    change (runRoutine (jump levels) routine (some index) values).run machine = _
    unfold runRoutine
    rw [run_bind_of_ok hsettled, run_bind_of_ok (StateT.run_get machine)]
    simp only
    have hdepth : ¬ maxDepth < machine.depth + callCost + 1 := by
      have hspace := hholds.room
      have hroom := h.room
      omega
    have hcalled : (set { machine with
        frames := [callFrame (some index) []], output := "", outer := machine.depth + callCost } :
          Eval PUnit).run machine = .ok ((), machine.called (some index) []) := rfl
    have hstored := storeParameters_run (jump levels) machine (some index)
      (routine.parameters.zip values).reverse []
    rw [List.foldl_reverse] at hstored
    rw [if_neg hdepth, run_bind_of_ok hcalled, h.defaults, List.reverse_nil,
      run_bind_of_ok hstored]
    rfl

/-- A call of a routine whose parameters are all given by position. -/
theorem Runs.routine {routine : Routine} {index levels : Nat} {closure : Bindings}
    {values : List Value} {text : String} (h : routine.Takes scope index closure values)
    (hbody : Writes (scope.called (routine.parameters.zip values) closure) (jump levels)
      routine.body text) :
    Runs scope (callValue (jump (levels + 1)) (.routine routine (some index)) values)
      (.text text) "" := by
  intro machine hholds
  obtain ⟨found, hcalled, hcall⟩ := h.call_run hholds levels
  obtain ⟨made, hmade⟩ := hbody _ hcalled
  refine ⟨made, ?_⟩
  rw [hcall, run_bind_of_ok hmade]
  change Except.ok _ = _
  simp [Machine.after, Machine.called]

end DsdlHeaders.Template
