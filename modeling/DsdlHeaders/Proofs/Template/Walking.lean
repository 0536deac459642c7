import DsdlHeaders.Proofs.Template.Scope

/-!
# Loops

A loop pulls its items from a cursor, one before each turn, assigns it to its targets and runs its
body in a frame of its own.

* **Cursors.** `Delivers` says which items a cursor still hands out, whatever streams are made
  meanwhile. It covers plain items and the numbered items of a stream.
* **Targets.** `Binds` says which names a target binds to which parts of an item.
* **Turns.** `Runs.loop` runs a body once for every item. If the body writes a text for each item,
  the loop writes these texts one after the other.
-/

namespace DsdlHeaders.Template

open Eval

/-! ## Cursors -/

/-- Items with their index and whether they are the last one. -/
def numberedItems (index : Int) : List Value → List Value
  | [] => []
  | item :: rest => numberedItem index rest.isEmpty item :: numberedItems (index + 1) rest

/-- A stream over plain items that still hands out the given ones. -/
def Stream.Holds (stream : Stream) (items : List Value) : Prop :=
  ∃ rest, stream.source = .items rest ∧
    match stream.ahead with
    | none => items = numberedItems stream.index rest
    | some none => items = [] ∧ rest = []
    | some (some item) => items = numberedItems stream.index (item :: rest)

/-- The items that a cursor still hands out, when there were the streams `base` before its walk. -/
inductive Delivers (base : List Stream) : List Value → Cursor → List Stream → Prop where
  | items {rest : List Value} {streams : List Stream} (hbase : base <+: streams) :
    Delivers base rest (.items rest) streams
  | numbered {items : List Value} {stream : Stream} {before more : List Stream}
    (hbase : base <+: before) (hstream : stream.Holds items) :
    Delivers base items (.stream before.length) (before ++ stream :: more)

section Cursors

variable {base streams : List Stream} {items : List Value} {cursor : Cursor}

/-- A walk spares the streams that were there before. -/
theorem Delivers.base_prefix (h : Delivers base items cursor streams) : base <+: streams := by
  cases h with
  | items hbase => exact hbase
  | numbered hbase => exact hbase.trans (List.prefix_append _ _)

/-- New streams do not disturb a walk. -/
theorem Delivers.append (h : Delivers base items cursor streams) (made : List Stream) :
    Delivers base items cursor (streams ++ made) := by
  cases h with
  | items hbase => exact .items (hbase.trans (List.prefix_append _ _))
  | numbered hbase hstream =>
    rw [List.append_assoc, List.cons_append]
    exact .numbered hbase hstream

/-- One pull leads at least through a cursor and its source. -/
theorem two_le_reach (cursor : Cursor) (streams : List Stream) :
    ∃ fuel, reach cursor streams = fuel + 2 := by
  have hfold : ∀ (streams : List Stream) (start : Nat),
      start ≤ streams.foldl (fun total stream => total + stream.source.depth + 1) start := by
    intro streams
    induction streams with
    | nil => exact fun start => Nat.le_refl start
    | cons stream streams ih =>
      intro start
      exact Nat.le_trans (by omega) (ih (start + stream.source.depth + 1))
  have hdepth : 1 ≤ cursor.depth := by cases cursor <;> simp [Cursor.depth]
  have hreach := hfold streams (cursor.depth + 1)
  unfold reach
  exact ⟨_ - 2, (Nat.sub_add_cancel (by omega)).symm⟩

/-- A plain cursor hands out its first item. -/
theorem pullFor_items (fuel : Nat) (rest : List Value) (streams : List Stream) :
    pullFor (fuel + 1) (.items rest) streams = ⟨rest.head?, .items rest.tail, streams⟩ := by
  cases rest <;> rfl

/-- What a stream over plain items hands out, and how it goes on. -/
theorem pullStream_of_holds (before more : List Stream) {stream : Stream} (fuel : Nat)
    (h : stream.Holds items) :
    ∃ next : Stream, pullStream (pullFor (fuel + 1)) before.length (before ++ stream :: more) =
        (items.head?, before ++ next :: more) ∧ next.Holds items.tail := by
  generalize hall : before ++ stream :: more = streams
  have hfound : streams[before.length]? = some stream := by simp [← hall]
  have hset : ∀ next, streams.set before.length next = before ++ next :: more := by simp [← hall]
  obtain ⟨source, ahead, index⟩ := stream
  obtain ⟨rest, rfl, hitems⟩ := h
  have hlast : ∃ next : Stream, ((none : Option Value),
      streams.set before.length ⟨.items [], none, index⟩) = (none, before ++ next :: more) ∧
        next.Holds [] := ⟨_, by rw [hset], [], rfl, rfl⟩
  have hnext : ∀ (item : Value) (later : List Value), ∃ next : Stream,
      (some (numberedItem index later.head?.isNone item),
        streams.set before.length ⟨.items later.tail, some later.head?, index + 1⟩) =
          ((numberedItems index (item :: later)).head?, before ++ next :: more) ∧
        next.Holds (numberedItems index (item :: later)).tail := by
    intro item later
    refine ⟨⟨.items later.tail, some later.head?, index + 1⟩, ?_, later.tail, rfl, ?_⟩
    · rw [hset]
      cases later <;> rfl
    · cases later with
      | nil => exact ⟨rfl, rfl⟩
      | cons => rfl
  unfold pullStream
  rw [hfound]
  match ahead, hitems with
  | none, hitems =>
    obtain rfl := hitems
    cases rest with
    | nil =>
      simp only [pullFor_items]
      exact hlast
    | cons item later =>
      simp only [pullFor_items]
      exact hnext item later
  | some none, ⟨hnil, hrest⟩ =>
    subst hnil hrest
    exact hlast
  | some (some item), hitems =>
    obtain rfl := hitems
    simpa only [pullFor_items] using hnext item rest

/-- A cursor hands out its items one by one. -/
theorem Delivers.pull (h : Delivers base items cursor streams) :
    ∃ next later, cursor.pull streams = ⟨items.head?, next, later⟩ ∧
      Delivers base items.tail next later := by
  unfold Cursor.pull
  obtain ⟨fuel, hfuel⟩ := two_le_reach cursor streams
  rw [hfuel]
  cases h with
  | items hbase => exact ⟨_, _, pullFor_items _ _ _, .items hbase⟩
  | numbered hbase hstream =>
    rename_i stream before more
    obtain ⟨next, hpull, hnext⟩ := pullStream_of_holds before more fuel hstream
    refine ⟨.stream before.length, before ++ next :: more, ?_, .numbered hbase hnext⟩
    rw [pullFor, hpull]

/-- The number of items that can be pulled bounds the walk. -/
theorem Delivers.length_le (h : Delivers base items cursor streams) :
    items.length ≤ cursor.remaining streams := by
  have hlength : ∀ (index : Int) (all : List Value),
      (numberedItems index all).length = all.length := by
    intro index all
    induction all generalizing index with
    | nil => rfl
    | cons item all ih => simp [numberedItems, ih]
  unfold Cursor.remaining
  obtain ⟨fuel, hfuel⟩ := two_le_reach cursor streams
  rw [hfuel]
  cases h with
  | items => exact Nat.le_refl _
  | numbered hbase hstream =>
    rename_i stream before more
    obtain ⟨source, ahead, index⟩ := stream
    obtain ⟨rest, rfl, hitems⟩ := hstream
    have hremaining : remainingFor (before ++ ⟨.items rest, ahead, index⟩ :: more) (fuel + 2)
        (.stream before.length) = rest.length + 1 := by
      simp [remainingFor]
    rw [hremaining]
    match ahead, hitems with
    | none, hitems => rw [hitems, hlength]; exact Nat.le_succ _
    | some none, hitems => rw [hitems.1]; exact Nat.zero_le _
    | some (some item), hitems => rw [hitems, hlength]; exact Nat.le_refl _

end Cursors

/-! ## Targets -/

/-- What a target binds when an item is assigned to it. -/
inductive Binds : Target → Value → Bindings → Prop where
  | name (name : String) (item : Value) : Binds (.name name) item [(name, item)]
  | unpack {names : List String} {parts : List Value} (hnames : names.Nodup)
    (hlength : names.length = parts.length) :
    Binds (.unpack (names.map .name)) (.list parts) (names.zip parts)

/-- Names that are paired with parts mean one of them, and no other name means any. -/
theorem find?_zip_isSome {names : List String} {parts : List Value}
    (hlength : names.length = parts.length) (name : String) :
    (Bindings.find? (names.zip parts) name).isSome = decide (name ∈ names) := by
  induction names generalizing parts with
  | nil => rfl
  | cons first names ih =>
    cases parts with
    | nil => exact absurd hlength (by simp)
    | cons part parts =>
      have hlater : names.length = parts.length := by simpa using hlength
      have hrest := ih hlater
      rw [List.zip_cons_cons, Bindings.find?]
      by_cases hname : first = name
      · simp [hname]
      · rw [if_neg hname, hrest]
        simp [Ne.symm hname]

/-- Inserting names one after the other, each once. -/
theorem Bindings.find?_foldl_insert {names : List String} (hnames : names.Nodup)
    {parts : List Value} (hlength : names.length = parts.length) (found : Bindings)
    (name : String) :
    Bindings.find? ((names.zip parts).foldl (fun all b => all.insert b.1 b.2) found) name =
      (Bindings.find? (names.zip parts) name).or (found.find? name) := by
  induction names generalizing parts found with
  | nil => rfl
  | cons first names ih =>
    cases parts with
    | nil => exact absurd hlength (by simp)
    | cons part parts =>
      rw [List.nodup_cons] at hnames
      have hlater : names.length = parts.length := by simpa using hlength
      rw [List.zip_cons_cons, List.foldl_cons, ih hnames.2 hlater, Bindings.find?_insert,
        Bindings.find?]
      by_cases hname : first = name
      · have habsent := find?_zip_isSome hlater name
        rw [decide_eq_false (hname ▸ hnames.1), Option.isSome_eq_false_iff,
          Option.isNone_iff_eq_none] at habsent
        simp [hname, habsent]
      · simp [hname]

/-- The names that a list of names assigns. -/
theorem assignedAll_names (names : List String) :
    Target.assignedAll (names.map .name) = names := by
  induction names with
  | nil => rfl
  | cons name names ih => rw [List.map_cons, Target.assignedAll, ih]; rfl

section Turns

variable (invoke : Invoke) (machine : Machine) (walk : Walk) (streams : List Stream)
variable (text : String)

/-- Assigning parts to names one by one in the frame of a loop. -/
theorem assignAll_names_run (names : List String) (parts : List Value)
    (hlength : names.length = parts.length) (found : Bindings) :
    (assignAll invoke (names.map .name) parts).run (machine.inside found walk streams text) =
      .ok ((), machine.inside ((names.zip parts).foldl (fun all b => all.insert b.1 b.2) found)
        walk streams text) := by
  induction names generalizing parts found with
  | nil =>
    cases parts with
    | nil => rfl
    | cons => exact absurd hlength (by simp)
  | cons name names ih =>
    cases parts with
    | nil => exact absurd hlength (by simp)
    | cons part parts =>
      have hstore : (assign invoke (.name name) part).run (machine.inside found walk streams text) =
          .ok ((), machine.inside (found.insert name part) walk streams text) := rfl
      rw [List.map_cons, assignAll, run_bind_of_ok hstore]
      exact ih parts (by simpa using hlength) (found.insert name part)

/-- Assigning an item in the frame of a loop. Afterwards the frame knows what the target binds, and
nothing else. -/
theorem Binds.assign_run {target : Target} {item : Value} {names found : Bindings}
    (h : Binds target item names) (hfound : ∀ name ∉ target.assigned, found.find? name = none) :
    ∃ after : Bindings, (assign invoke target item).run (machine.inside found walk streams text) =
        .ok ((), machine.inside after walk streams text) ∧
      (∀ name, after.find? name = names.find? name) ∧
      ∀ name ∉ target.assigned, after.find? name = none := by
  cases h with
  | name name item =>
    have hafter : ∀ other, (found.insert name item).find? other =
        Bindings.find? [(name, item)] other := by
      intro other
      rw [Bindings.find?_insert, Bindings.find?]
      by_cases hname : name = other
      · rw [if_pos hname, if_pos hname]
      · rw [if_neg hname, if_neg hname]
        exact hfound other (by simpa [Target.assigned] using Ne.symm hname)
    refine ⟨found.insert name item, rfl, hafter, fun other hother => ?_⟩
    rw [hafter, Bindings.find?, if_neg]
    · rfl
    · rintro rfl
      exact hother (by simp [Target.assigned])
  | @unpack names parts hnames hlength =>
    have hassigned : (Target.unpack (names.map .name)).assigned = names := assignedAll_names names
    rw [hassigned] at hfound ⊢
    have hpart := find?_zip_isSome hlength
    have hafter : ∀ name, Bindings.find?
        ((names.zip parts).foldl (fun all b => all.insert b.1 b.2) found) name =
          Bindings.find? (names.zip parts) name := by
      intro name
      rw [Bindings.find?_foldl_insert hnames hlength]
      by_cases hname : name ∈ names
      · obtain ⟨value, hvalue⟩ := Option.isSome_iff_exists.mp
          ((hpart name).trans (decide_eq_true hname))
        rw [hvalue]
        rfl
      · rw [hfound name hname, Option.or_none]
    refine ⟨_, ?_, hafter, fun name hname => ?_⟩
    · have hparts : (unpacked (.list parts)).run (machine.inside found walk streams text) =
          .ok (parts, machine.inside found walk streams text) := rfl
      rw [assign, run_bind_of_ok hparts, if_pos (by rw [List.length_map, hlength])]
      exact assignAll_names_run invoke machine walk streams text names parts hlength found
    · have hnone := hpart name
      rw [decide_eq_false hname, Option.isSome_eq_false_iff, Option.isNone_iff_eq_none] at hnone
      rw [hafter, hnone]

end Turns

/-! ## Turns -/

/-- The walk of the innermost loop is the last one. -/
theorem Machine.inside_walk (machine : Machine) (found : Bindings) (walk : Walk)
    (streams : List Stream) (text : String) :
    (machine.inside found walk streams text).walks[machine.walks.length]? = some walk := by
  simp [Machine.inside]

/-- Changing what is known of the innermost loop. -/
theorem modifyWalk_run (machine : Machine) (found : Bindings) (walk : Walk)
    (streams : List Stream) (text : String) (change : Walk → Walk) :
    (modifyWalk machine.walks.length change).run (machine.inside found walk streams text) =
      .ok ((), machine.inside found (change walk) streams text) := by
  have hmodify : (machine.walks ++ [walk]).modify machine.walks.length change =
      machine.walks ++ [change walk] := by
    induction machine.walks with
    | nil => rfl
    | cons first rest ih => exact congrArg (first :: ·) ih
  change Except.ok _ = _
  simp only [Machine.inside, hmodify]

/-- The next item of the innermost loop. -/
theorem nextItem_run {base streams : List Stream} {items : List Value} {walk : Walk}
    (hahead : walk.ahead = none) (h : Delivers base items walk.rest streams) (machine : Machine)
    (found : Bindings) (text : String) :
    ∃ next later, (nextItem machine.walks.length false).run
        (machine.inside found walk streams text) =
          .ok (items.head?, machine.inside found { walk with rest := next } later text) ∧
      Delivers base items.tail next later := by
  obtain ⟨next, later, hpull, hnext⟩ := h.pull
  refine ⟨next, later, ?_, hnext⟩
  have hpulled : (Eval.pull walk.rest).run (machine.inside found walk streams text) =
      .ok ((items.head?, next), machine.inside found walk later text) := by
    have hrun : ∀ machine : Machine, (Eval.pull walk.rest).run machine =
        .ok (((walk.rest.pull machine.streams).item, (walk.rest.pull machine.streams).rest),
          { machine with streams := (walk.rest.pull machine.streams).streams }) := fun _ => rfl
    rw [hrun, show (machine.inside found walk streams text).streams = streams from rfl, hpull]
    rfl
  have hsteps : (nextItem machine.walks.length false).run (machine.inside found walk streams text) =
      (do
        let pulled ← Eval.pull walk.rest
        modifyWalk machine.walks.length fun found =>
          { found with rest := pulled.2, ahead := none }
        pure pulled.1 : Eval (Option Value)).run (machine.inside found walk streams text) := by
    unfold nextItem
    rw [StateT.run_bind, StateT.run_get, pure_bind, Machine.inside_walk]
    simp only [hahead]
    rfl
  rw [hsteps, StateT.run_bind, hpulled]
  change StateT.run (modifyWalk _ _ >>= fun _ => pure items.head?) _ = _
  rw [StateT.run_bind, modifyWalk_run]
  change Except.ok _ = _
  rw [← hahead]

section Loop

variable {β : Type} {scope : Scope} {machine : Machine} {invoke : Invoke} {target : Target}
variable {body : List Stmt} {base : List Stream}
variable {item : β → Value} {names : β → Bindings} {texts : β → String}

/-- One turn of a loop: the item is assigned, and the body runs. -/
def turn (invoke : Invoke) (target : Target) (body : List Stmt) (item : Value) : Eval Unit := do
  assign invoke target item
  executeAll invoke body

/-- A machine inside a loop that ran something. -/
theorem Machine.after_inside (machine : Machine) (found : Bindings) (walk : Walk)
    (streams made : List Stream) (text later : String) :
    (machine.inside found walk streams text).after made later =
      machine.inside found walk (streams ++ made) (text ++ later) := by
  simp [Machine.inside, Machine.after, String.append_assoc]

/-- The turns of a loop, one for each of the items that its cursor hands out. -/
theorem eachTurn_run (h : scope.HoldsIn machine) (hroom : 0 < scope.room) (depth : Nat)
    (length : Option Nat) (xs : List β)
    (hturns : ∀ x ∈ xs, Binds target (item x) (names x) ∧ (names x).Lasting ∧
      Runs (scope.inside (names x)) (executeAll invoke body) () (texts x))
    (fuel index : Nat) (previous : Value) (before : List Unit) (found : Bindings) (walk : Walk)
    (streams : List Stream) (text : String) (hfuel : xs.length ≤ fuel) (hahead : walk.ahead = none)
    (hitems : Delivers base (xs.map item) walk.rest streams)
    (hfound : ∀ name ∉ target.assigned, found.find? name = none) :
    ∃ results found' walk' streams',
      (eachTurn (turn invoke target body) machine.walks.length depth length fuel index previous
          before).run (machine.inside found walk streams text) =
        .ok (results, machine.inside found' walk' streams' (text ++ String.join (xs.map texts))) ∧
      base <+: streams' := by
  induction xs generalizing fuel index previous before found walk streams text with
  | nil =>
    have hsilent : text ++ String.join (([] : List β).map texts) = text := by simp
    rw [hsilent]
    cases fuel with
    | zero => exact ⟨before.reverse, found, walk, streams, rfl, hitems.base_prefix⟩
    | succ fuel =>
      obtain ⟨next, later, hnext, hrest⟩ := nextItem_run hahead hitems machine found text
      refine ⟨before.reverse, found, { walk with rest := next }, later, ?_, hrest.base_prefix⟩
      rw [eachTurn, run_bind_of_ok hnext]
      rfl
  | cons x xs ih =>
    obtain ⟨fuel, rfl⟩ : ∃ fuel', fuel = fuel' + 1 := by
      cases fuel with
      | zero => exact absurd hfuel (by simp)
      | succ fuel => exact ⟨fuel, rfl⟩
    obtain ⟨hbinds, hlasting, hbody⟩ := hturns x (List.mem_cons_self ..)
    obtain ⟨next, later, hnext, hrest⟩ := nextItem_run hahead hitems machine found text
    -- The walk at this turn, and the frame after its item was assigned.
    let present : Walk := { walk with
      rest := next, turn := .loop machine.walks.length depth index length previous }
    obtain ⟨after, hassign, hafter, hothers⟩ :=
      hbinds.assign_run invoke machine present later text hfound
    obtain ⟨made, hmade⟩ := hbody _ (h.inside hroom hlasting hafter present later text)
    rw [Machine.after_inside] at hmade
    have hturn : (turn invoke target body (item x)).run (machine.inside found present later text) =
        .ok ((), machine.inside after present (later ++ made) (text ++ texts x)) := by
      rw [turn, run_bind_of_ok hassign, hmade]
    obtain ⟨results, found', walk', streams', hlast, hbase⟩ :=
      ih (fun y hy => hturns y (List.mem_cons_of_mem x hy)) fuel (index + 1) (item x)
        (() :: before) after present (later ++ made) (text ++ texts x) (by simpa using hfuel) hahead
        (hrest.append made) hothers
    refine ⟨results, found', walk', streams', ?_, hbase⟩
    rw [eachTurn, run_bind_of_ok hnext, List.map_cons, List.map_cons, List.head?_cons]
    simp only
    rw [run_bind_of_ok (modifyWalk_run ..), run_bind_of_ok hturn, String.join_cons,
      ← String.append_assoc]
    exact hlast

/-- An action in a frame of its own. -/
theorem inFrame_run {α : Type} {action : Eval α} {result : α} {walk : Option Nat}
    {m inner : Machine} (hdepth : ¬ maxDepth < m.outer + (m.frames.length + 1))
    (h : action.run { m with frames := ⟨[], none, none, walk⟩ :: m.frames } =
      .ok (result, inner)) :
    (inFrame walk action).run m =
      .ok (result, { inner with frames := inner.frames.drop 1 }) := by
  unfold inFrame
  rw [StateT.run_bind, StateT.run_modify]
  change StateT.run (if maxDepth < m.outer + (m.frames.length + 1) then _ else _) _ = _
  rw [if_neg hdepth, run_bind_of_ok h]
  rfl

/-- An action that gives a value over which a walk meets the given items. -/
def Walks (scope : Scope) (action : Eval Value) (items : List Value) : Prop :=
  ∀ machine, scope.HoldsIn machine → ∃ value made cursor,
    action.run machine = .ok (value, machine.after made "") ∧ value.isMissing = false ∧
    (opened value).run (machine.after made "") = .ok (cursor, machine.after made "") ∧
    Delivers machine.streams items cursor (machine.streams ++ made)

/-- A loop writes what its body writes for each item. -/
theorem Runs.loop {head : LoopHead} {xs : List β} (hroom : 0 < scope.room)
    (hcondition : head.condition = none)
    (hitems : Walks scope (evaluate invoke head.items) (xs.map item))
    (hturns : ∀ x ∈ xs, Binds head.target (item x) (names x) ∧ (names x).Lasting ∧
      Runs (scope.inside (names x)) (executeAll invoke body) () (texts x)) :
    Runs scope (execute invoke (.loop head body [])) () (String.join (xs.map texts)) := by
  intro machine h
  obtain ⟨value, made, cursor, hvalue, hmissing, hopened, hdelivers⟩ := hitems machine h
  let again : Option Again := if head.recursive then some ⟨head.target, body⟩ else none
  let started : Walk :=
    ⟨.missing, (machine.after made "").loopDepth, again, true, cursor, none, none⟩
  obtain ⟨results, found', walk', streams', hturn, made', rfl⟩ := eachTurn_run h hroom
    (machine.after made "").loopDepth (turnCount? value cursor) xs hturns
    (cursor.remaining (machine.streams ++ made)) 0 .missing [] [] started (machine.streams ++ made)
    "" (by simpa using hdelivers.length_le) rfl hdelivers (fun _ _ => rfl)
  refine ⟨made', ?_⟩
  have hdepth : ¬ maxDepth < machine.outer + (machine.frames.length + 1) := by
    have hspace := h.room
    unfold Machine.depth at hspace
    omega
  have hwalk : (walk true again value (turn invoke head.target body)).run (machine.after made "") =
      .ok (results, machine.after made' (String.join (xs.map texts))) := by
    have hpresent : (present value).run (machine.after made "") =
        .ok ((), machine.after made "") := by
      unfold present
      rw [hmissing]
      rfl
    have hbegin : (beginWalk true again cursor).run (machine.after made "") =
        .ok ((machine.walks.length, (machine.after made "").loopDepth),
          { machine.after made "" with walks := machine.walks ++ [started] }) := rfl
    have hremaining : (remaining cursor).run (machine.after made "") =
        .ok (cursor.remaining (machine.streams ++ made), machine.after made "") := rfl
    have hframe := inFrame_run (m := { machine.after made "" with
      walks := machine.walks ++ [started] }) hdepth hturn
    unfold walk
    rw [run_bind_of_ok hpresent, run_bind_of_ok hopened, run_bind_of_ok hremaining,
      run_bind_of_ok hbegin, run_bind_of_ok hframe]
    change Except.ok _ = _
    simp [Machine.after, Machine.inside]
  have hselected : (Pure.pure value : Eval Value).run (machine.after made "") =
      .ok (value, machine.after made "") := rfl
  rw [execute, run_bind_of_ok hvalue, hcondition]
  simp only
  rw [run_bind_of_ok hselected]
  change (walk true again value (turn invoke head.target body) >>= _).run _ = _
  rw [run_bind_of_ok hwalk]
  split <;> rfl

end Loop

end DsdlHeaders.Template
