import DsdlHeaders.Template.Expansion

/-!
# What a part of a template relies on

A part of a template does not depend on the whole state of an expansion, only on what the names in
it mean. A `Scope` says that much: names with their values, the closures, and how deep frames may
still nest. `Runs scope action result text` says that an action gives the result in every machine
in which the scope holds, writes the text, and leaves all else as it was, but for streams of its own
that it may leave behind.

* **Composition.** `Runs.pure` and `Runs.bind` follow the steps of an action, so that there can be
  one rule for each kind of expression and statement.
* **Frames.** A loop opens a frame for the names that it binds, so a scope holds inside it together
  with these names (`Scope.HoldsIn.inside`).
-/

namespace DsdlHeaders.Template

open Eval

/-! ## Names -/

/-- A name that was given a value has it, and all others keep theirs. -/
theorem Bindings.find?_insert (names : Bindings) (name : String) (value : Value) (other : String) :
    (names.insert name value).find? other =
      if name = other then some value else names.find? other := by
  have hfilter : ∀ rest : Bindings, name ≠ other →
      Bindings.find? (rest.filter fun b => b.1 ≠ name) other = rest.find? other := by
    intro rest hne
    induction rest with
    | nil => rfl
    | cons entry rest ih =>
      obtain ⟨n, v⟩ := entry
      by_cases hn : n = name
      · rw [List.filter_cons_of_neg (by simp [hn]), ih, Bindings.find?, if_neg (hn ▸ hne)]
      · rw [List.filter_cons_of_pos (by simp [hn]), Bindings.find?, Bindings.find?, ih]
  unfold Bindings.insert
  rw [Bindings.find?]
  by_cases hname : name = other
  · simp [hname]
  · rw [if_neg hname, if_neg hname, hfilter names hname]

/-- Names of one list, and below them those of another. -/
theorem Bindings.find?_append (names others : Bindings) (name : String) :
    Bindings.find? (names ++ others) name = (names.find? name).or (others.find? name) := by
  induction names with
  | nil => rfl
  | cons entry names ih =>
    obtain ⟨n, v⟩ := entry
    by_cases hn : n = name
    · simp [Bindings.find?, hn]
    · simpa [Bindings.find?, hn] using ih

/-! ## Scopes -/

/-- Is a value the turn of a loop? Such a value changes while the loop goes on. -/
def Value.isTurn : Value → Bool
  | .loop .. => true
  | _ => false

/-- What a name stands for, a turn of a loop as it was stored. -/
def Machine.meaning? (machine : Machine) (name : String) : Option Value :=
  (machine.inFrames? machine.frames name).or <|
    (machine.context.find? name).or <| (Builtin.ofName? name).map .function

/-- What a part of a template may rely on. -/
structure Scope where
  names : Bindings
  closures : List Bindings
  /-- How many frames may be opened inside each other. -/
  room : Nat

/-- Names that mean the same as long as they are in sight. -/
def Bindings.Lasting (names : Bindings) : Prop :=
  ∀ name value, names.find? name = some value → name ≠ loopName ∧ value.isTurn = false

/-- Names that last stay so when others that last come before them. -/
theorem Bindings.Lasting.append {names others : Bindings} (h : names.Lasting)
    (hothers : others.Lasting) : Bindings.Lasting (names ++ others) := by
  intro name value hfound
  rw [Bindings.find?_append] at hfound
  cases hfirst : names.find? name with
  | some first =>
    rw [hfirst] at hfound
    obtain rfl : first = value := by simpa using hfound
    exact h name first hfirst
  | none =>
    rw [hfirst] at hfound
    exact hothers name value hfound

/-- A machine in which a scope holds. -/
structure Scope.HoldsIn (scope : Scope) (machine : Machine) : Prop where
  lasting : scope.names.Lasting
  known : ∀ name value, scope.names.find? name = some value → machine.meaning? name = some value
  closures : machine.closures = scope.closures
  room : machine.depth + scope.room ≤ maxDepth

/-- A machine that made streams and wrote a text. -/
def Machine.after (machine : Machine) (made : List Stream) (text : String) : Machine :=
  { machine with streams := machine.streams ++ made, output := machine.output ++ text }

/-- A value that is no turn of a loop is what it was when it was stored. -/
theorem Machine.present_of_not_isTurn (machine : Machine) {value : Value}
    (h : value.isTurn = false) : machine.present value = value := by
  cases value <;> first | rfl | exact absurd h (by simp [Value.isTurn])

/-- The value of a name in sight. -/
theorem Machine.lookup?_of_meaning? {machine : Machine} {name : String} {value : Value}
    (h : machine.meaning? name = some value) (hturn : value.isTurn = false) :
    machine.lookup? name = some value := by
  unfold Machine.meaning? at h
  unfold Machine.lookup?
  cases hframes : machine.inFrames? machine.frames name with
  | none =>
    rw [hframes] at h
    exact h
  | some found =>
    rw [hframes] at h
    obtain rfl : found = value := by simpa using h
    simp [machine.present_of_not_isTurn hturn]

/-- What frames know of a name does not depend on streams and output. -/
theorem Machine.inFrames?_congr (machine other : Machine) (hwalks : other.walks = machine.walks)
    (hclosures : other.closures = machine.closures) (frames : List Frame) (name : String) :
    other.inFrames? frames name = machine.inFrames? frames name := by
  induction frames with
  | nil => rfl
  | cons frame frames ih =>
    simp only [Machine.inFrames?, Machine.inLoop?, Machine.inClosure?, hwalks, hclosures, ih]

/-- A scope still holds after streams were made and text was written. -/
theorem Scope.HoldsIn.after {scope : Scope} {machine : Machine} (h : scope.HoldsIn machine)
    (made : List Stream) (text : String) : scope.HoldsIn (machine.after made text) where
  lasting := h.lasting
  known name value hname := by
    have hframes : (machine.after made text).inFrames? machine.frames name =
        machine.inFrames? machine.frames name :=
      Machine.inFrames?_congr machine (machine.after made text) rfl rfl _ _
    rw [← h.known name value hname, Machine.meaning?, Machine.meaning?, ← hframes]
    rfl
  closures := h.closures
  room := h.room

/-! ## Actions -/

/-- In every machine in which the scope holds, an action gives a result and writes a text. It leaves
nothing else behind but streams of its own. -/
def Runs {α : Type} (scope : Scope) (action : Eval α) (result : α) (text : String) : Prop :=
  ∀ machine, scope.HoldsIn machine →
    ∃ made, action.run machine = .ok (result, machine.after made text)

/-- An action goes on after its first step. -/
theorem run_bind_of_ok {α β : Type} {first : Eval α} {next : α → Eval β} {a : α}
    {machine later : Machine} (h : first.run machine = .ok (a, later)) :
    (first >>= next).run machine = (next a).run later := by
  rw [StateT.run_bind, h]
  rfl

section Composition

variable {α β : Type} {scope : Scope}

/-- A result without any steps. -/
theorem Runs.pure (result : α) : Runs scope (Pure.pure result) result "" := by
  intro machine _
  refine ⟨[], ?_⟩
  simp [Machine.after]
  rfl

/-- One action after the other. -/
theorem Runs.bind {first : Eval α} {next : α → Eval β} {a : α} {b : β} {s t : String}
    (hfirst : Runs scope first a s) (hnext : Runs scope (next a) b t) :
    Runs scope (first >>= next) b (s ++ t) := by
  intro machine h
  obtain ⟨made, hmade⟩ := hfirst machine h
  obtain ⟨more, hmore⟩ := hnext (machine.after made s) (h.after made s)
  refine ⟨made ++ more, ?_⟩
  rw [run_bind_of_ok hmade, hmore]
  simp [Machine.after, List.append_assoc, String.append_assoc]

/-- A silent action before another one. -/
theorem Runs.then {first : Eval α} {next : α → Eval β} {a : α} {b : β} {t : String}
    (hfirst : Runs scope first a "") (hnext : Runs scope (next a) b t) :
    Runs scope (first >>= next) b t := by
  have h := hfirst.bind hnext
  rwa [String.empty_append] at h

/-- An action that the state has no part in. -/
theorem Runs.of_run {action : Eval α} {result : α}
    (h : ∀ machine, action.run machine = .ok (result, machine)) : Runs scope action result "" := by
  intro machine _
  refine ⟨[], ?_⟩
  rw [h machine]
  simp [Machine.after]

end Composition

/-! ## Frames -/

/-- The scope inside a loop that binds names. -/
def Scope.inside (scope : Scope) (names : Bindings) : Scope where
  names := names ++ scope.names
  closures := scope.closures
  room := scope.room - 1

/-- The machine inside a loop: a frame of its own, its walk, and what streams and text became. -/
def Machine.inside (machine : Machine) (names : Bindings) (walk : Walk) (streams : List Stream)
    (text : String) : Machine :=
  { machine with
    frames := ⟨names, none, none, some machine.walks.length⟩ :: machine.frames
    walks := machine.walks ++ [walk]
    streams := streams
    output := machine.output ++ text }

/-- Outside the name of a loop, frames do not ask for walks. -/
theorem Machine.inFrames?_of_ne_loopName (machine other : Machine) {name : String}
    (hname : name ≠ loopName) (hclosures : other.closures = machine.closures)
    (frames : List Frame) : other.inFrames? frames name = machine.inFrames? frames name := by
  induction frames with
  | nil => rfl
  | cons frame frames ih =>
    simp only [Machine.inFrames?, Machine.inLoop?, Machine.inClosure?, hname, if_false, hclosures,
      ih]

/-- A scope holds inside a loop together with the names that the loop binds. -/
theorem Scope.HoldsIn.inside {scope : Scope} {machine : Machine} (h : scope.HoldsIn machine)
    (hroom : 0 < scope.room) {names found : Bindings} (hlasting : names.Lasting)
    (hfound : ∀ name, found.find? name = names.find? name) (walk : Walk) (streams : List Stream)
    (text : String) :
    (scope.inside names).HoldsIn (machine.inside found walk streams text) where
  lasting := hlasting.append h.lasting
  known name value hname := by
    have hne := ((hlasting.append h.lasting) name value hname).1
    change (names ++ scope.names).find? name = some value at hname
    rw [Bindings.find?_append] at hname
    have hbelow : (machine.inside found walk streams text).inFrames? machine.frames name =
        machine.inFrames? machine.frames name :=
      Machine.inFrames?_of_ne_loopName machine (machine.inside found walk streams text) hne rfl _
    have hframes : (machine.inside found walk streams text).inFrames?
        (machine.inside found walk streams text).frames name =
          (names.find? name).or (machine.inFrames? machine.frames name) := by
      change (found.find? name).or _ = _
      rw [hfound, hbelow]
      simp [Machine.inLoop?, Machine.inClosure?, hne]
    unfold Machine.meaning?
    rw [hframes]
    cases hfirst : names.find? name with
    | some first =>
      rw [hfirst] at hname
      simpa using hname
    | none =>
      rw [hfirst] at hname
      exact h.known name value hname
  closures := h.closures
  room := by
    have hdepth := h.room
    change machine.outer + (machine.frames.length + 1) + (scope.room - 1) ≤ maxDepth
    unfold Machine.depth at hdepth
    omega

end DsdlHeaders.Template
