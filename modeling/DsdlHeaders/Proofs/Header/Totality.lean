import DsdlHeaders.Proofs.Header.Codec
import DsdlHeaders.Proofs.Template.Failing

/-!
# When the shipped template can be expanded

The shipped template compiles, and it can be expanded for every definition that has a context,
whatever its kind, its names, its port identifier and its numbers of fields and constants. The one
step that could fail takes one from the number of fields of a union, in integers of 128 bits; no
list in memory comes near that bound.

* **Success.** Within the bound the expansion is the header of the context (`expand_shipped`).
* **Failure.** Beyond it the routine that declares the union fails where its tag is sized
  (`fails_tag`, `fails_declaration`), and with it the template (`expand_eq_error`).

Main statement: `shipped_expands_iff`.
-/

namespace DsdlHeaders

namespace Template.Shipped

/-! ## Structures -/

section Declaration

variable {typeName : String} {body : BodyContext} {info : Option NameContext} {room : Nat}
variable {invoke : Invoke}

/-- The tag of a union with too many fields has no size. -/
theorem fails_tag (hcount : Text.wordSize 127 ≤ body.fields.length) :
    Fails (declarationScope typeName body info room) (executeAll invoke tagTree)
      .invalidOperation := by
  unfold tagTree
  apply Fails.later (Runs.text _)
  apply Fails.later runs_enumerators
  apply Fails.later (Runs.text _)
  apply Fails.head
  apply Fails.output
  · exact Fails.binary gives_fieldCount (Gives.integer 1) (Fails.pred hcount)
  · simp

/-- The declaration of a union with too many fields fails at its tag. -/
theorem fails_declaration (hcount : ¬ body.Countable) :
    Fails (declarationScope typeName body info room) (executeAll invoke declarationTree)
      .invalidOperation := by
  obtain ⟨hunion, hmany⟩ := Classical.not_imp.mp hcount
  have hroom : 0 < (declarationScope typeName body info room).room := Nat.succ_pos _
  have hflag : Gives (declarationScope typeName body info room) invoke (.name "union")
      (.boolean body.isUnion) := Gives.of_value? rfl
  rw [hunion] at hflag
  unfold declarationTree
  iterate 7 apply Fails.later (Runs.of_plain? rfl)
  -- The types of the constants and of the fields are listed before the tag.
  refine Fails.later (Runs.loop_name hroom (fun _ => .of_all rfl)
    (Walks.list (Gives.of_value? rfl)) fun _ _ => Writes.of_plainAll? rfl) ?_
  apply Fails.later (Runs.text _)
  refine Fails.later (Runs.loop_name hroom (fun _ => .of_all rfl)
    (Walks.list (Gives.of_value? rfl)) fun _ _ => Writes.of_plainAll? rfl) ?_
  apply Fails.later (Runs.text _)
  exact Fails.head (Fails.branch_true hflag rfl rfl rfl (fails_tag (Nat.not_lt.mp hmany)))

end Declaration

section Header

variable {context : Context} {levels : Nat} {typeName : String} {body : BodyContext}
variable {arguments : List Expr}

/-- A call of the routine that declares a structure fails for a union with too many fields. -/
theorem fails_declarationCall (info : Option NameContext) (hcount : ¬ body.Countable)
    (hvalues : Expr.values? (headerScope context).names arguments =
      some [.text typeName, fieldValues body.fields, constantValues body.constants,
        .boolean body.isUnion, infoValue body info]) :
    Fails (headerScope context) (evaluate (jump (levels + 1)) (call "struct_body" arguments))
      .invalidOperation := by
  apply Fails.call rfl (by decide) (.of_values? hvalues)
  exact Fails.routine (takes_declaration typeName body info) (fails_declaration hcount)

/-- The declaration of a structure outside all others. -/
theorem fails_outer (info : Option NameContext) (hcount : ¬ body.Countable)
    (hvalues : Expr.values? (headerScope context).names arguments =
      some [.text typeName, fieldValues body.fields, constantValues body.constants,
        .boolean body.isUnion, infoValue body info]) :
    Fails (headerScope context) (execute (jump (levels + 1))
      (.output (call "struct_body" arguments))) .invalidOperation :=
  Fails.output (fails_declarationCall info hcount hvalues) (by simp [call, loopName])

/-- The declaration of a structure inside another one. -/
theorem fails_nested (hcount : ¬ body.Countable)
    (hvalues : Expr.values? (headerScope context).names arguments =
      some [.text typeName, fieldValues body.fields, constantValues body.constants,
        .boolean body.isUnion, .nothing]) :
    Fails (headerScope context) (execute (jump (levels + 1))
      (.output (call "indent" [call "struct_body" arguments]))) .invalidOperation := by
  have hdeclaration : Fails (headerScope context)
      (evaluate (jump (levels + 1)) (call "struct_body" arguments)) .invalidOperation :=
    fails_declarationCall none hcount hvalues
  apply Fails.output
  · exact Fails.argument (by simp [call]) hdeclaration
  · simp [call, loopName]

/-! ## Headers -/

/-- The structure of a message with too many fields. -/
theorem fails_message {names : NameContext} (hcount : ¬ body.Countable) :
    Fails (headerScope ⟨names, .message body⟩) (executeAll (jump (levels + 1)) messageTree)
      .invalidOperation := by
  obtain ⟨_, _, _, _, _, _, _, _, portId, _⟩ := names
  unfold messageTree
  cases portId with
  | none => exact Fails.head (fails_outer (some _) hcount rfl)
  | some portId => exact Fails.head (fails_outer (some _) hcount rfl)

/-- The structures of a service one of which has too many fields. -/
theorem fails_service {names : NameContext} {request response : BodyContext}
    (hcount : ¬ (request.Countable ∧ response.Countable)) :
    Fails (headerScope ⟨names, .service request response⟩)
      (executeAll (jump (levels + 1)) serviceTree) .invalidOperation := by
  obtain ⟨_, _, _, _, _, _, _, _, portId, _⟩ := names
  unfold serviceTree
  cases portId
  all_goals
    iterate 3 apply Fails.later (Runs.of_plain? rfl)
    by_cases hrequest : request.Countable
    · apply Fails.later (runs_nested hrequest rfl)
      apply Fails.later (Runs.text _)
      exact Fails.head (fails_nested (fun hresponse => hcount ⟨hrequest, hresponse⟩) rfl)
    · exact Fails.head (fails_nested hrequest rfl)

end Header

/-- The structures of a header one of which has too many fields. -/
theorem fails_content {levels : Nat} {context : Context}
    (hcount : ¬ ∀ body ∈ context.bodies.list, body.Countable) :
    Fails (headerScope context) (execute (jump (levels + 1))
      (.choose (.compare (attr "t" "kind") [.equal] [.text "Message"]) messageTree serviceTree))
      .invalidOperation := by
  obtain ⟨names, bodies⟩ := context
  cases bodies with
  | message body =>
    have hbody : ¬ body.Countable := by
      intro hfew
      apply hcount
      simpa [ContextBodies.list] using hfew
    exact Fails.branch_true gives_isMessage rfl rfl rfl (fails_message hbody)
  | service request response =>
    have hboth : ¬ (request.Countable ∧ response.Countable) := by
      intro hfew
      apply hcount
      simpa [ContextBodies.list] using hfew
    exact Fails.branch_false gives_isMessage rfl rfl rfl (fails_service hboth)

/-- The shipped template fails for a union with too many fields. -/
theorem expand_eq_error (path : String) {context : Context}
    (hcount : ¬ ∀ body ∈ context.bodies.list, body.Countable) :
    Compiled.expand ⟨path, tree⟩ context = .error .invalidOperation := by
  have hcontent : Fails (headerScope context) (executeAll (jump maxDepth) contentTree)
      .invalidOperation :=
    Fails.append writes_opening (Fails.head (fails_content hcount))
  unfold Compiled.expand expandAll
  rw [executeAll_tree_run, hcontent (ready context) (headerScope_holdsIn context)]
  rfl

end Template.Shipped

/-! ## Definitions -/

/-- The shipped template compiles, and for a definition that has a context its expansion gives a
text exactly when no union has `2 ^ 127` fields or more. No list in memory has that many items:
lengths are words of 64 bits there. -/
theorem shipped_expands_iff (path extension : String) {definition : Definition}
    {context : Context} (h : definition.context extension = .ok context) :
    ∃ template, Template.compile path Template.Shipped.source = .ok template ∧
      ((∃ text, template.expand context = .ok text) ↔
        ∀ body ∈ definition.bodies, body.isUnion = true → body.fields.length < 2 ^ 127) := by
  refine ⟨_, Template.Shipped.compile_source path, ?_⟩
  rw [← Definition.countable_iff h]
  constructor
  · rintro ⟨text, htext⟩
    by_contra hcount
    rw [Template.Shipped.expand_eq_error path hcount] at htext
    exact absurd htext (by simp)
  · intro hcount
    exact ⟨Layout.header context, Template.Shipped.expand_shipped path hcount⟩

/-- A service without a port identifier. Its request has no fields, and its response is a union with
a constant. -/
def pollService : Definition :=
  .service "demo.status.Poll" none (.mk [] [] false)
    (.mk [.mk (some "idle") (.primitive ⟨.boolean, 1, .saturated⟩),
        .mk (some "load") (.array (.primitive ⟨.unsigned, 8, .truncated⟩) (.dynamic 3))]
      [⟨"LIMIT", ⟨.unsigned, 8, .saturated⟩, "100"⟩] true)

/-- Both structures of the service are written. -/
theorem pollService_expands : ∃ context, pollService.context "hpp" = .ok context ∧
    ∃ template, Template.compile "data_type" Template.Shipped.source = .ok template ∧
      ∃ text, template.expand context = .ok text := by
  have hsome : (pollService.context "hpp").toOption.isSome = true := by decide +kernel
  cases hcontext : pollService.context "hpp" with
  | error error =>
    rw [hcontext] at hsome
    exact absurd hsome (by simp [Except.toOption])
  | ok context =>
    obtain ⟨template, hcompile, hexpand⟩ := shipped_expands_iff "data_type" "hpp" hcontext
    have hfew : ∀ body ∈ pollService.bodies, body.fields.length < 2 ^ 127 := by decide
    exact ⟨context, rfl, template, hcompile, hexpand.mpr fun body hbody _ => hfew body hbody⟩

end DsdlHeaders
