import DsdlHeaders.Proofs.Template.Plain

/-!
# Parts of a template that fail

`Fails scope action error` says that an action fails with an error in every machine in which the
scope holds. An error ends the whole expansion, so what fails is found by going through the steps up
to it: those before it by the rules of `Runs`, and the one that fails by a rule of this module.

* **Composition.** An action fails if its first step does (`Fails.first`), or if a later one does
  after the first one ran (`Runs.fails`).
* **Statements.** Statements fail at the first one that fails (`Fails.head`, `Fails.later`), outputs
  and conditions with what they evaluate or run.
* **Calls.** A call fails if its first argument does (`Fails.argument`) or what is called
  (`Fails.call`), and a routine fails with its body (`Fails.routine`).
* **Numbers.** One cannot be taken from a count that integers do not reach (`Fails.pred`).
-/

namespace DsdlHeaders.Template

open Eval

/-- In every machine in which the scope holds, an action fails with an error. -/
def Fails {α : Type} (scope : Scope) (action : Eval α) (error : EvalError) : Prop :=
  ∀ machine, scope.HoldsIn machine → action.run machine = .error error

variable {scope : Scope} {invoke : Invoke} {error : EvalError}

/-! ## Composition -/

section Composition

variable {α β : Type} {action : Eval α} {next : α → Eval β} {a : α} {text : String}

/-- An action ends when its first step fails. -/
theorem run_bind_of_error {machine : Machine} (h : action.run machine = .error error) :
    (action >>= next).run machine = .error error := by
  rw [StateT.run_bind, h]
  rfl

/-- An action fails if its first step does. -/
theorem Fails.first (h : Fails scope action error) : Fails scope (action >>= next) error := by
  intro machine hholds
  exact run_bind_of_error (h machine hholds)

/-- An action fails if it does so after its first step. -/
theorem Runs.fails (hfirst : Runs scope action a text) (hnext : Fails scope (next a) error) :
    Fails scope (action >>= next) error := by
  intro machine hholds
  obtain ⟨made, hmade⟩ := hfirst machine hholds
  rw [run_bind_of_ok hmade]
  exact hnext _ (hholds.after made text)

end Composition

/-! ## Expressions -/

/-- An operator that cannot be applied. -/
theorem Fails.binary {op : BinaryOp} {first second : Expr} {a b : Value}
    (hfirst : Gives scope invoke first a) (hsecond : Gives scope invoke second b)
    (happly : Fails scope (applyBinary op a b) error) :
    Fails scope (evaluate invoke (.binary op first second)) error := by
  rw [evaluate]
  exact Runs.fails hfirst (Runs.fails hsecond happly)

/-- A call by name whose first argument fails. -/
theorem Fails.argument {name : String} {e : Expr} {others : List Expr}
    (hspread : ∀ items, e ≠ .spread items) (h : Fails scope (evaluate invoke e) error) :
    Fails scope (evaluate invoke (.call (.name name) (e :: others) [] [])) error := by
  have harguments : Fails scope (evaluateArguments invoke (e :: others)) error := by
    rw [evaluateArguments]
    · exact Fails.first h
    · exact hspread
  rw [evaluate]
  exact Fails.first harguments

/-- A call by name of something that fails. -/
theorem Fails.call {name : String} {callee : Value} {arguments : List Expr} {values : List Value}
    (hname : scope.names.find? name = some callee) (hsuper : name ≠ "super")
    (harguments : GivesAll scope invoke arguments values)
    (hcall : Fails scope (callValue invoke callee values) error) :
    Fails scope (evaluate invoke (.call (.name name) arguments [] [])) error := by
  have hcalled : Fails scope (callName invoke name values) error := by
    intro machine hholds
    have hlasting := hholds.lasting name callee hname
    have hlookup := Machine.lookup?_of_meaning? (hholds.known name callee hname) hlasting.2
    unfold callName
    rw [run_bind_of_ok (StateT.run_get machine), if_neg hsuper, if_neg hlasting.1, hlookup]
    exact hcall machine hholds
  rw [evaluate]
  refine Runs.fails harguments.evaluateArguments (Runs.fails (Runs.pure []) ?_)
  exact Runs.fails (assembled_run values) hcalled

/-- A routine fails with its body. -/
theorem Fails.routine {routine : Routine} {index levels : Nat} {closure : Bindings}
    {values : List Value} (h : routine.Takes scope index closure values)
    (hbody : Fails (scope.called (routine.parameters.zip values) closure)
      (executeAll (jump levels) routine.body) error) :
    Fails scope (callValue (jump (levels + 1)) (.routine routine (some index)) values) error := by
  intro machine hholds
  obtain ⟨found, hcalled, hcall⟩ := h.call_run hholds levels
  rw [hcall]
  exact run_bind_of_error (hbody _ hcalled)

/-! ## Statements -/

/-- Statements fail if the first one does. -/
theorem Fails.head {stmt : Stmt} {rest : List Stmt} (h : Fails scope (execute invoke stmt) error) :
    Fails scope (executeAll invoke (stmt :: rest)) error := by
  rw [executeAll]
  exact Fails.first h

/-- Statements fail if one of them does after the first. -/
theorem Fails.later {stmt : Stmt} {rest : List Stmt} {text : String}
    (hstmt : Runs scope (execute invoke stmt) () text)
    (hrest : Fails scope (executeAll invoke rest) error) :
    Fails scope (executeAll invoke (stmt :: rest)) error := by
  rw [executeAll]
  exact Runs.fails hstmt hrest

/-- Statements fail if those of a second list do after those of a first one. -/
theorem Fails.append {body rest : List Stmt} {text : String}
    (hbody : Writes scope invoke body text) (hrest : Fails scope (executeAll invoke rest) error) :
    Fails scope (executeAll invoke (body ++ rest)) error := by
  rw [executeAll_append]
  exact Runs.fails hbody hrest

/-- The output of an expression that fails. -/
theorem Fails.output {e : Expr} (h : Fails scope (evaluate invoke e) error)
    (hcall : ∀ items, e ≠ .call (.name loopName) [.spread items] [] []) :
    Fails scope (execute invoke (.output e)) error := by
  rw [execute, outputValue_eq hcall]
  exact Fails.first h

/-- Statements that fail under a condition that holds. -/
theorem Fails.branch_true {condition : Expr} {yes no : List Stmt} {value : Value}
    (hcondition : Gives scope invoke condition value) (hmissing : value.isMissing = false)
    (hlazy : value.isLazy = false) (htrue : value.isTrue = true)
    (hyes : Fails scope (executeAll invoke yes) error) :
    Fails scope (execute invoke (.choose condition yes no)) error := by
  rw [execute]
  refine Runs.fails hcondition (Runs.fails (Runs.truth hmissing hlazy) ?_)
  rwa [if_pos htrue]

/-- Statements that fail where a condition does not hold. -/
theorem Fails.branch_false {condition : Expr} {yes no : List Stmt} {value : Value}
    (hcondition : Gives scope invoke condition value) (hmissing : value.isMissing = false)
    (hlazy : value.isLazy = false) (hfalse : value.isTrue = false)
    (hno : Fails scope (executeAll invoke no) error) :
    Fails scope (execute invoke (.choose condition yes no)) error := by
  rw [execute]
  refine Runs.fails hcondition (Runs.fails (Runs.truth hmissing hlazy) ?_)
  rwa [if_neg (by simp [hfalse])]

/-! ## Numbers -/

/-- A count that is no integer of 128 bits has no predecessor. -/
theorem Value.subtract_one_eq_none {n : Nat} (h : Text.wordSize 127 ≤ n) :
    BinaryOp.subtract.apply (.word n) (.word 1) = none := by
  have hword : ¬ (Text.wordSize 64 ≤ 1) := by
    have hsize : 1 < Text.wordSize 64 := one_lt_wordSize (by omega)
    omega
  have hcount : ¬ (fitsInteger n && fitsInteger ((1 : Nat) : Int)) = true := by
    intro hboth
    rw [Bool.and_eq_true] at hboth
    have hbounds := fitsInteger_iff.mp hboth.1
    omega
  unfold BinaryOp.apply arithmetic pair?
  simp only
  rw [integers?_of_word hword, if_neg hcount]

/-- One less than a count that integers do not reach. -/
theorem Fails.pred {n : Nat} (h : Text.wordSize 127 ≤ n) :
    Fails scope (applyBinary .subtract (.word n) (.word 1)) .invalidOperation := by
  intro machine _
  unfold applyBinary
  rw [Value.subtract_one_eq_none h]
  rfl

end DsdlHeaders.Template
