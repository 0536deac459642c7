import DsdlHeaders.Proofs.Template.Running

/-!
# Statements whose text can be read off

Most statements of a template are literal texts and outputs of names and members. What they write
follows from the names in sight alone, so it can be computed instead of proved.

* **Values.** `Expr.value?` is the value of an expression without calls and operators
  (`Gives.of_value?`).
* **Texts.** `Stmt.plain?` is what a literal text or a plain output writes (`Runs.of_plain?`).
* **Lists.** `Writes.join_cons` adds the text of one statement to those of others.
-/

namespace DsdlHeaders.Template

open Eval

variable {scope : Scope} {invoke : Invoke}

/-! ## Values -/

/-- The value of a member of a map. -/
def Value.part? (value : Value) (key : String) : Option Value :=
  match value with
  | .entries false found => (Value.lookup? (.text key) found).filter fun part => !part.isTurn
  | _ => none

/-- The value of an expression that needs nothing but the names in sight. -/
def Expr.value? (names : Bindings) : Expr → Option Value
  | .name n => names.find? n
  | .text s => some (.text s)
  | .nothing => some .nothing
  | .member (.name n) m => (names.find? n).bind (·.part? m)
  | _ => none

/-- An expression that needs only the names in sight has its value. -/
theorem Gives.of_value? {e : Expr} {value : Value} (h : e.value? scope.names = some value) :
    Gives scope invoke e value := by
  unfold Expr.value? at h
  split at h
  · exact Gives.name h
  · obtain rfl := Option.some.inj h
    exact Gives.text _
  · obtain rfl := Option.some.inj h
    exact Gives.nothing
  · obtain ⟨object, hobject, hentry⟩ := Option.bind_eq_some_iff.mp h
    unfold Value.part? at hentry
    split at hentry
    · obtain ⟨hlookup, hturn⟩ := Option.filter_eq_some_iff.mp hentry
      exact Gives.member (Gives.name hobject) hlookup (by simpa using hturn)
    · exact absurd hentry (by simp)
  · exact absurd h (by simp)

/-- The values of several expressions. -/
def Expr.values? (names : Bindings) : List Expr → Option (List Value)
  | [] => some []
  | e :: es =>
    match e.value? names, Expr.values? names es with
    | some value, some values => some (value :: values)
    | _, _ => none

/-- Expressions that need only the names in sight have their values. -/
theorem GivesAll.of_values? {es : List Expr} {values : List Value}
    (h : Expr.values? scope.names es = some values) : GivesAll scope invoke es values := by
  induction es generalizing values with
  | nil =>
    obtain rfl := Option.some.inj h
    exact .nil
  | cons e es ih =>
    unfold Expr.values? at h
    split at h
    · rename_i value later hvalue hlater
      obtain rfl := Option.some.inj h
      refine .cons ?_ (Gives.of_value? hvalue) (ih hlater)
      rintro items rfl
      exact absurd hvalue (by simp [Expr.value?])
    · exact absurd h (by simp)

/-! ## Texts -/

/-- The text of a value that prints without asking the state. -/
def Value.plain? : Value → Option String
  | .text s => some s
  | .word n => some (toString n)
  | .integer n => some (toString n)
  | _ => none

/-- Such a value is plain. -/
theorem Plain.of_plain? {value : Value} {text : String} (h : value.plain? = some text) :
    Plain value text := by
  unfold Value.plain? at h
  split at h
  · exact Option.some.inj h ▸ .text _
  · exact Option.some.inj h ▸ .word _
  · exact Option.some.inj h ▸ .integer _
  · exact absurd h (by simp)

/-- What a literal text or the output of a plain value writes. -/
def Stmt.plain? (names : Bindings) : Stmt → Option String
  | .text s => some s
  | .output e => (e.value? names).bind Value.plain?
  | _ => none

/-- A plain statement writes its text. -/
theorem Runs.of_plain? {stmt : Stmt} {text : String} (h : stmt.plain? scope.names = some text) :
    Runs scope (execute invoke stmt) () text := by
  unfold Stmt.plain? at h
  split at h
  · obtain rfl := Option.some.inj h
    exact Runs.text _
  · obtain ⟨value, hvalue, hplain⟩ := Option.bind_eq_some_iff.mp h
    refine Runs.output (Gives.of_value? hvalue) (Plain.of_plain? hplain) ?_
    rintro items rfl
    exact absurd hvalue (by simp [Expr.value?])
  · exact absurd h (by simp)

/-! ## Lists of statements -/

/-- No statements write no texts. -/
theorem Writes.join_nil : Writes scope invoke [] (String.join []) :=
  Writes.nil

/-- One statement before others. -/
theorem Writes.join_cons {stmt : Stmt} {rest : List Stmt} {text : String} {texts : List String}
    (hstmt : Runs scope (execute invoke stmt) () text)
    (hrest : Writes scope invoke rest (String.join texts)) :
    Writes scope invoke (stmt :: rest) (String.join (text :: texts)) := by
  rw [String.join_cons]
  exact Writes.cons hstmt hrest

/-- A single statement. -/
theorem Writes.single {stmt : Stmt} {text : String}
    (h : Runs scope (execute invoke stmt) () text) : Writes scope invoke [stmt] text := by
  have hcons := Writes.cons h Writes.nil
  rwa [String.append_empty] at hcons

/-- The texts of plain statements. -/
def Stmt.plainAll? (names : Bindings) : List Stmt → Option (List String)
  | [] => some []
  | stmt :: rest =>
    match stmt.plain? names, Stmt.plainAll? names rest with
    | some first, some later => some (first :: later)
    | _, _ => none

/-- Plain statements write their texts. -/
theorem Writes.of_plainAll? {body : List Stmt} {texts : List String}
    (h : Stmt.plainAll? scope.names body = some texts) :
    Writes scope invoke body (String.join texts) := by
  induction body generalizing texts with
  | nil =>
    obtain rfl := Option.some.inj h
    exact Writes.join_nil
  | cons stmt rest ih =>
    unfold Stmt.plainAll? at h
    split at h
    · rename_i text later htext hlater
      obtain rfl := Option.some.inj h
      exact Writes.join_cons (Runs.of_plain? htext) (ih hlater)
    · exact absurd h (by simp)

/-- Running statements of one list and then those of another. -/
theorem executeAll_append (invoke : Invoke) (body rest : List Stmt) :
    executeAll invoke (body ++ rest) =
      executeAll invoke body >>= fun _ => executeAll invoke rest := by
  induction body with
  | nil => rw [List.nil_append, executeAll.eq_1 invoke, pure_bind]
  | cons stmt body ih => rw [List.cons_append, executeAll, executeAll, ih, bind_assoc]

/-- Statements of one list before those of another. -/
theorem Writes.append {body rest : List Stmt} {s t : String} (hbody : Writes scope invoke body s)
    (hrest : Writes scope invoke rest t) : Writes scope invoke (body ++ rest) (s ++ t) := by
  unfold Writes
  rw [executeAll_append]
  exact Runs.bind hbody hrest

/-! ## Names that last -/

/-- A name that means something is one of the list. -/
theorem Bindings.mem_of_find? {names : Bindings} {name : String} {value : Value}
    (h : names.find? name = some value) : (name, value) ∈ names := by
  induction names with
  | nil => exact absurd h (by simp [Bindings.find?])
  | cons entry names ih =>
    obtain ⟨n, v⟩ := entry
    rw [Bindings.find?] at h
    split at h
    · rename_i heq
      obtain rfl := Option.some.inj h
      exact heq ▸ List.mem_cons_self
    · exact List.mem_cons_of_mem _ (ih h)

/-- Names that stand for no loop and no turn of one last. -/
theorem Bindings.Lasting.of_all {names : Bindings}
    (h : (names.all fun entry => decide (entry.1 ≠ loopName) && !entry.2.isTurn) = true) :
    names.Lasting := by
  intro name value hfound
  have hentry := List.all_eq_true.mp h (name, value) (Bindings.mem_of_find? hfound)
  obtain ⟨hname, hvalue⟩ := Bool.and_eq_true_iff.mp hentry
  exact ⟨of_decide_eq_true hname, by simpa using hvalue⟩

/-! ## Conditions and loops -/

/-- Statements under a condition that holds. -/
theorem Runs.branch_true {condition : Expr} {yes no : List Stmt} {value : Value} {text : String}
    (hcondition : Gives scope invoke condition value) (hmissing : value.isMissing = false)
    (hlazy : value.isLazy = false) (htrue : value.isTrue = true)
    (hyes : Writes scope invoke yes text) :
    Runs scope (execute invoke (.choose condition yes no)) () text := by
  apply Runs.choose hcondition hmissing hlazy
  rwa [if_pos htrue]

/-- Statements under a condition that fails. -/
theorem Runs.branch_false {condition : Expr} {yes no : List Stmt} {value : Value} {text : String}
    (hcondition : Gives scope invoke condition value) (hmissing : value.isMissing = false)
    (hlazy : value.isLazy = false) (hfalse : value.isTrue = false)
    (hno : Writes scope invoke no text) :
    Runs scope (execute invoke (.choose condition yes no)) () text := by
  apply Runs.choose hcondition hmissing hlazy
  rwa [if_neg (by simp [hfalse])]

/-- Statements of one branch or of another. -/
theorem Runs.branch {condition : Expr} {yes no : List Stmt} {b : Bool} {s t : String}
    (hcondition : Gives scope invoke condition (.boolean b))
    (hyes : b = true → Writes scope invoke yes s) (hno : b = false → Writes scope invoke no t) :
    Runs scope (execute invoke (.choose condition yes no)) () (if b then s else t) := by
  cases b with
  | true => exact Runs.branch_true hcondition rfl rfl rfl (hyes rfl)
  | false => exact Runs.branch_false hcondition rfl rfl rfl (hno rfl)

/-- The output of one text or of another. -/
theorem Runs.choice {condition : Expr} {b : Bool} {s t : String}
    (hcondition : Gives scope invoke condition (.boolean b)) :
    Runs scope (execute invoke (.output (.choose condition (.text s) (.text t)))) ()
      (if b then s else t) := by
  have hvalue : Gives scope invoke (.choose condition (.text s) (.text t))
      (.text (if b then s else t)) := by
    apply Gives.choose hcondition rfl rfl
    cases b with
    | true => exact Gives.text s
    | false => exact Gives.text t
  exact Runs.output hvalue (.text _) (by simp)

section Loops

variable {β : Type} {items : Expr} {body : List Stmt} {xs : List β} {texts : β → String}

/-- A loop that gives each item a name. -/
theorem Runs.loop_name {name : String} {item : β → Value} (hroom : 0 < scope.room)
    (hlasting : ∀ x, Bindings.Lasting [(name, item x)])
    (hitems : Walks scope (evaluate invoke items) (xs.map item))
    (hbody : ∀ x ∈ xs, Writes (scope.inside [(name, item x)]) invoke body (texts x)) :
    Runs scope (execute invoke (.loop ⟨.name name, items, none, false⟩ body [])) ()
      (String.join (xs.map texts)) := by
  apply Runs.loop hroom rfl hitems
  intro x hx
  exact ⟨.name name (item x), hlasting x, hbody x hx⟩

/-- A loop that gives the parts of each item names. -/
theorem Runs.loop_names (names : List String) {parts : β → List Value} (hroom : 0 < scope.room)
    (hnames : names.Nodup) (hlength : ∀ x, names.length = (parts x).length)
    (hlasting : ∀ x, Bindings.Lasting (names.zip (parts x)))
    (hitems : Walks scope (evaluate invoke items) (xs.map fun x => .list (parts x)))
    (hbody : ∀ x ∈ xs, Writes (scope.inside (names.zip (parts x))) invoke body (texts x)) :
    Runs scope
      (execute invoke (.loop ⟨.unpack (names.map .name), items, none, false⟩ body [])) ()
      (String.join (xs.map texts)) := by
  apply Runs.loop hroom rfl hitems
  intro x hx
  exact ⟨.unpack hnames (hlength x), hlasting x, hbody x hx⟩

end Loops

end DsdlHeaders.Template
