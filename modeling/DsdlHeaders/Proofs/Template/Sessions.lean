import Mathlib.Data.Set.Card
import DsdlHeaders.Template.Cache

/-!
# Template caches over whole sessions

A session is a history of actions: files change in any way, a template is asked for, all templates
are forgotten. What a cache gives is determined by that history (`cache_coherent`).

* **One call** finds its template, or fails and changes nothing, or compiles the template and puts
  it in front (`get_outcome`).
* **Templates stay.** A template that is found is found after every further action but forgetting
  (`find?_step`, `find?_of_later`), and it was put there by a call at which nothing was found
  (`exists_call_of_find?`). So the template of a path is the one that the first successful call
  compiled, from the file as it was then.
* **Keys and serials.** No two templates of a cache have the same steps of paths, and every new
  template has a serial number that none before it had (`Cache.Sound`). The former makes the size
  of a cache a number of paths, the latter lets one tell a template from another one that was
  compiled from the same text.
-/

namespace DsdlHeaders

/-- Two spellings name the same place if they have the same steps. -/
theorem Path.same_iff {path other : String} : Path.same path other = true ↔
    Path.steps path = Path.steps other := by
  simp [Path.same]

namespace Template

/-! ## Template files -/

/-- A template knows the path that it was compiled for. -/
theorem path_of_compileFile {store : Store} {path : String} {template : Compiled}
    (h : compileFile store path = .ok template) : template.path = path := by
  unfold compileFile compileSource compile at h
  split at h
  · exact absurd h (by simp)
  · split at h
    · exact absurd h (by simp)
    · rename_i hcompile
      obtain rfl := Except.ok.inj h
      split at hcompile
      · exact absurd hcompile (by simp)
      · split at hcompile
        · exact absurd hcompile (by simp)
        · rw [← Except.ok.inj hcompile]

/-- What a template file is compiled to depends on its text. -/
theorem compileFile_congr {first second : Store} {path : String}
    (h : second.read path = first.read path) :
    compileFile second path = compileFile first path := by
  unfold compileFile readSource Store.readText
  rw [h]

/-- Only a file that can be read can be compiled. -/
theorem exists_read_of_compileFile {store : Store} {path : String} {template : Compiled}
    (h : compileFile store path = .ok template) : ∃ bytes, store.read path = .ok bytes := by
  unfold compileFile readSource Store.readText at h
  cases hread : store.read path with
  | error fault => exact absurd h (by simp [hread])
  | ok bytes => exact ⟨bytes, rfl⟩

/-! ## One call -/

namespace Cache

variable {cache changed : Cache} {store : Store} {path other : String} {cached : Cached}
  {template : Compiled}

/-- Spellings of one place find the same template. -/
theorem find?_congr (h : Path.same path other = true) : cache.find? path = cache.find? other := by
  unfold find? Path.same
  rw [Path.same_iff.mp h]

/-- A new template is found under its path and hides nothing else. -/
theorem find?_insert (cache : Cache) (template : Compiled) (path : String) :
    (cache.insert template).2.find? path =
      if Path.same template.path path = true then some ⟨cache.next, template⟩
      else cache.find? path := by
  simp only [find?, insert, List.find?_cons]
  split <;> simp_all

/-- Everything that a call can do: it finds its template; or it finds none and fails as compiling
the file does, and the cache stays as it is; or it compiles the file and puts the template in. -/
theorem get_outcome (cache : Cache) (store : Store) (path : String) :
    (∃ cached, cache.find? path = some cached ∧ cache.get store path = (.ok cached, cache)) ∨
    (cache.find? path = none ∧ ∃ error, compileFile store path = .error error ∧
      cache.get store path = (.error error, cache)) ∨
    (cache.find? path = none ∧ ∃ template, compileFile store path = .ok template ∧
      cache.get store path = (.ok ⟨cache.next, template⟩, (cache.insert template).2)) := by
  cases hfind : cache.find? path with
  | some cached => exact .inl ⟨cached, rfl, by simp [get, hfind]⟩
  | none =>
    cases hcompile : compileFile store path with
    | error error => exact .inr (.inl ⟨rfl, error, rfl, by simp [get, hfind, hcompile]⟩)
    | ok template =>
      exact .inr (.inr ⟨rfl, template, rfl, by simp [get, hfind, hcompile, insert]⟩)

/-- A template that a cache gives is in it, or compiled and then put into it. -/
theorem get_cases (h : cache.get store path = (.ok cached, changed)) :
    (cache.find? path = some cached ∧ changed = cache) ∨
      (cache.find? path = none ∧ compileFile store path = .ok cached.template ∧
        changed.find? path = some cached) := by
  rcases cache.get_outcome store path with ⟨found, hfind, hget⟩ | ⟨-, error, -, hget⟩ |
    ⟨hfind, template, hcompile, hget⟩
  · rw [hget] at h
    obtain ⟨hcached, rfl⟩ := Prod.mk.inj h
    exact .inl ⟨hfind.trans (congrArg some (Except.ok.inj hcached)), rfl⟩
  · rw [hget] at h
    exact absurd (Prod.mk.inj h).1 (by simp)
  · rw [hget] at h
    obtain ⟨hcached, rfl⟩ := Prod.mk.inj h
    obtain rfl := Except.ok.inj hcached
    refine .inr ⟨hfind, hcompile, ?_⟩
    rw [find?_insert, if_pos]
    rw [path_of_compileFile hcompile, Path.same_iff]

/-- A template that a cache gave is in the cache from then on. -/
theorem find?_of_get (h : cache.get store path = (.ok cached, changed)) :
    changed.find? path = some cached := by
  rcases get_cases h with ⟨hfind, rfl⟩ | ⟨-, -, hfind⟩
  · exact hfind
  · exact hfind

/-- A template that is in the cache is given, whatever the store is. -/
theorem get_of_find? (h : cache.find? path = some cached) (store : Store) :
    (cache.get store path).1 = .ok cached := by
  unfold get
  rw [h]

/-- A template that is not in the cache is compiled from its file. -/
theorem get_of_compileFile (hfind : cache.find? path = none)
    (h : compileFile store path = .ok template) :
    (cache.get store path).1 = .ok ⟨cache.next, template⟩ := by
  unfold get
  rw [hfind, h]
  rfl

/-- A template that is found is in the cache. -/
theorem mem_of_find? (h : cache.find? path = some cached) : cached ∈ cache.templates :=
  List.mem_of_find?_eq_some h

/-! ## Keys and serials -/

/-- The places of the templates in a cache. -/
def keys (cache : Cache) : List (List Path.Step) :=
  cache.templates.map fun cached => Path.steps cached.template.path

/-- A path has a template exactly when its place is among the keys. -/
theorem find?_ne_none_iff : cache.find? path ≠ none ↔ Path.steps path ∈ cache.keys := by
  simp [find?, keys, Path.same_iff]

/-- A cache in which no two templates have the same place, and every serial number was given out by
this cache. -/
structure Sound (cache : Cache) : Prop where
  distinct : cache.keys.Nodup
  serials : ∀ cached ∈ cache.templates, cached.serial < cache.next

/-- A cache that has compiled nothing is sound. -/
theorem sound_empty : empty.Sound :=
  ⟨List.nodup_nil, by simp [empty]⟩

/-- A template for a new place keeps a cache sound. -/
theorem Sound.insert (h : cache.Sound) (hnew : cache.find? template.path = none) :
    (cache.insert template).2.Sound := by
  have hkey : Path.steps template.path ∉ cache.keys := find?_ne_none_iff.not_right.mp hnew
  refine ⟨List.nodup_cons.mpr ⟨hkey, h.distinct⟩, ?_⟩
  intro cached hcached
  rcases List.mem_cons.mp hcached with rfl | hcached
  · exact Nat.lt_succ_self _
  · exact Nat.lt_succ_of_lt (h.serials cached hcached)

/-- A call keeps a cache sound. -/
theorem Sound.get (h : cache.Sound) (store : Store) (path : String) :
    (cache.get store path).2.Sound := by
  rcases cache.get_outcome store path with ⟨found, -, hget⟩ | ⟨-, error, -, hget⟩ |
    ⟨hfind, template, hcompile, hget⟩
  · rw [hget]
    exact h
  · rw [hget]
    exact h
  · rw [hget]
    exact h.insert (by rwa [path_of_compileFile hcompile])

/-- Calls give out serial numbers in ascending order. -/
theorem next_le_get (cache : Cache) (store : Store) (path : String) :
    cache.next ≤ (cache.get store path).2.next := by
  rcases cache.get_outcome store path with ⟨found, -, hget⟩ | ⟨-, error, -, hget⟩ |
    ⟨-, template, -, hget⟩
  · rw [hget]
  · rw [hget]
  · rw [hget]
    exact Nat.le_succ _

end Cache

/-! ## Sessions -/

/-- The files that there are, and the templates that were compiled from files. -/
structure Session where
  store : Store
  cache : Cache

namespace Session

/-- What can happen in a session. -/
inductive Action where
  /-- The files become these, whatever they were before. -/
  | change (store : Store)
  /-- A template is asked for. -/
  | get (path : String)
  /-- All templates are forgotten. -/
  | clear

/-- The session after an action. -/
def step (session : Session) : Action → Session
  | .change store => { session with store }
  | .get path => { session with cache := (session.cache.get session.store path).2 }
  | .clear => { session with cache := session.cache.clear }

/-- The session after a history that starts with these files and an empty cache. -/
def after (start : Store) (history : List Action) : Session :=
  history.foldl step ⟨start, .empty⟩

/-- What a call after a history gives. -/
def answer (start : Store) (history : List Action) (path : String) :
    Except TemplateError Cached :=
  ((after start history).cache.get (after start history).store path).1

/-- A call with this spelling of a path has succeeded since the templates were last forgotten. -/
def Succeeded (start : Store) (history : List Action) (path : String) : Prop :=
  ∃ earlier later, history = earlier ++ .get path :: later ∧ .clear ∉ later ∧
    ∃ cached, answer start earlier path = .ok cached

/-- The template is that of the first successful call for a path since the templates were last
forgotten: it was compiled from the file as it was at that moment, and it is none of the templates
that calls before have given. -/
def FirstGiven (start : Store) (history : List Action) (path : String) (cached : Cached) : Prop :=
  ∃ earlier spelled later, history = earlier ++ .get spelled :: later ∧ .clear ∉ later ∧
    Path.same spelled path = true ∧ answer start earlier spelled = .ok cached ∧
    compileFile (after start earlier).store spelled = .ok cached.template ∧
    (∀ other, Path.same other path = true → ¬ Succeeded start earlier other) ∧
    ∀ before other between found, earlier = before ++ .get other :: between →
      answer start before other = .ok found → found.serial ≠ cached.serial

variable {start : Store} {history earlier later : List Action} {path spelled : String}
  {cached : Cached}

/-- A history ends with its last action. -/
theorem after_concat (start : Store) (history : List Action) (action : Action) :
    after start (history ++ [action]) = (after start history).step action := by
  simp [after]

/-- A history is sound. -/
theorem sound_after (start : Store) (history : List Action) :
    (after start history).cache.Sound := by
  induction history using List.reverseRecOn with
  | nil => exact Cache.sound_empty
  | append_singleton history action ih =>
    rw [after_concat]
    cases action with
    | change store => exact ih
    | get path => exact ih.get _ _
    | clear => exact ⟨List.nodup_nil, by simp [step, Cache.clear]⟩

/-- Serial numbers ascend along a history. -/
theorem next_le_after (start : Store) (earlier later : List Action) :
    (after start earlier).cache.next ≤ (after start (earlier ++ later)).cache.next := by
  induction later using List.reverseRecOn with
  | nil => rw [List.append_nil]
  | append_singleton later action ih =>
    rw [← List.append_assoc, after_concat]
    cases action with
    | change store => exact ih
    | get path => exact ih.trans (Cache.next_le_get _ _ _)
    | clear => exact ih

/-! ## Templates stay -/

/-- A template that is found is found after every action but forgetting. -/
theorem find?_step {session : Session} {action : Action}
    (h : session.cache.find? path = some cached) (haction : action ≠ .clear) :
    (session.step action).cache.find? path = some cached := by
  cases action with
  | change store => exact h
  | clear => exact absurd rfl haction
  | get other =>
    show (session.cache.get session.store other).2.find? path = some cached
    rcases session.cache.get_outcome session.store other with ⟨found, -, hget⟩ |
      ⟨-, error, -, hget⟩ | ⟨hfind, template, hcompile, hget⟩
    · rwa [hget]
    · rwa [hget]
    · rw [hget, Cache.find?_insert, if_neg, h]
      -- a new template for the same place would mean that nothing was found there
      intro hsame
      rw [path_of_compileFile hcompile] at hsame
      rw [Cache.find?_congr hsame, h] at hfind
      exact absurd hfind (by simp)

/-- A template that is found is found until the templates are forgotten. -/
theorem find?_of_later (h : (after start earlier).cache.find? path = some cached)
    (hlater : .clear ∉ later) :
    (after start (earlier ++ later)).cache.find? path = some cached := by
  induction later using List.reverseRecOn with
  | nil => rwa [List.append_nil]
  | append_singleton later action ih =>
    simp only [List.mem_append, List.mem_singleton, not_or] at hlater
    rw [← List.append_assoc, after_concat]
    exact find?_step (ih hlater.1) (Ne.symm hlater.2)

/-- What a successful call gave is found after it. -/
theorem find?_of_answer (h : answer start earlier spelled = .ok cached)
    (hsame : Path.same spelled path = true) :
    (after start (earlier ++ [.get spelled])).cache.find? path = some cached := by
  rw [after_concat, ← Cache.find?_congr hsame]
  exact Cache.find?_of_get (Prod.ext h rfl)

/-- After a successful call a template is found, until the templates are forgotten. -/
theorem find?_of_succeeded (h : Succeeded start history spelled)
    (hsame : Path.same spelled path = true) :
    (after start history).cache.find? path ≠ none := by
  obtain ⟨earlier, later, rfl, hlater, cached, hcached⟩ := h
  have hfind := find?_of_later (find?_of_answer hcached hsame) hlater
  rw [List.append_assoc, List.singleton_append] at hfind
  rw [hfind]
  exact Option.some_ne_none _

/-- A template that is found was put there by a call at which none was found. -/
theorem exists_call_of_find? (h : (after start history).cache.find? path = some cached) :
    ∃ earlier spelled later, history = earlier ++ .get spelled :: later ∧ .clear ∉ later ∧
      Path.same spelled path = true ∧ answer start earlier spelled = .ok cached ∧
      compileFile (after start earlier).store spelled = .ok cached.template ∧
      (after start earlier).cache.find? path = none ∧
      cached.serial = (after start earlier).cache.next := by
  induction history using List.reverseRecOn with
  | nil => exact absurd h (by simp [after, Cache.find?, Cache.empty])
  | append_singleton history action ih =>
    -- a template that was there before the last action came from an earlier call
    have hearlier : action ≠ .clear → (after start history).cache.find? path = some cached →
        ∃ earlier spelled later, history ++ [action] = earlier ++ .get spelled :: later ∧
          .clear ∉ later ∧ Path.same spelled path = true ∧
          answer start earlier spelled = .ok cached ∧
          compileFile (after start earlier).store spelled = .ok cached.template ∧
          (after start earlier).cache.find? path = none ∧
          cached.serial = (after start earlier).cache.next := by
      intro haction hfind
      obtain ⟨earlier, spelled, later, rfl, hlater, hcall⟩ := ih hfind
      refine ⟨earlier, spelled, later ++ [action], by simp, ?_, hcall⟩
      simpa [hlater] using Ne.symm haction
    rw [after_concat] at h
    cases action with
    | change store => exact hearlier (by simp) h
    | clear => exact absurd h (by simp [step, Cache.clear, Cache.find?])
    | get other =>
      change ((after start history).cache.get (after start history).store other).2.find? path =
        some cached at h
      rcases (after start history).cache.get_outcome (after start history).store other with
        ⟨found, -, hget⟩ | ⟨-, error, -, hget⟩ | ⟨hfind, template, hcompile, hget⟩
      · exact hearlier (by simp) (by rwa [hget] at h)
      · exact hearlier (by simp) (by rwa [hget] at h)
      · rw [hget, Cache.find?_insert, path_of_compileFile hcompile] at h
        split at h
        · rename_i hsame
          obtain rfl := Option.some.inj h
          refine ⟨history, other, [], rfl, by simp, hsame, congrArg Prod.fst hget, hcompile, ?_,
            rfl⟩
          rw [← Cache.find?_congr hsame, hfind]
        · exact hearlier (by simp) h

/-- A template that is found was given first by the call that put it there. -/
theorem firstGiven_of_find? (h : (after start history).cache.find? path = some cached) :
    FirstGiven start history path cached := by
  obtain ⟨earlier, spelled, later, hhistory, hlater, hsame, hanswer, hcompile, hnone, hserial⟩ :=
    exists_call_of_find? h
  refine ⟨earlier, spelled, later, hhistory, hlater, hsame, hanswer, hcompile, ?_, ?_⟩
  · intro other hother hsucceeded
    exact find?_of_succeeded hsucceeded hother hnone
  · -- what was given before has a serial number below the next one
    intro before other between found hearlier hfound
    have hin := find?_of_answer hfound (Path.same_iff.mpr rfl)
    have hlt := (sound_after start (before ++ [.get other])).serials found
      (Cache.mem_of_find? hin)
    have hle := next_le_after start (before ++ [.get other]) between
    rw [List.append_assoc, List.singleton_append, ← hearlier, ← hserial] at hle
    exact Nat.ne_of_lt (Nat.lt_of_lt_of_le hlt hle)

/-! ## Coherence -/

/-- A path has a template exactly when a call for it has succeeded since the last forgetting. -/
theorem find?_ne_none_iff : (after start history).cache.find? path ≠ none ↔
    ∃ spelled, Path.same spelled path = true ∧ Succeeded start history spelled := by
  constructor
  · intro h
    obtain ⟨cached, hfind⟩ := Option.ne_none_iff_exists'.mp h
    obtain ⟨earlier, spelled, later, hhistory, hlater, hsame, hanswer, -⟩ :=
      exists_call_of_find? hfind
    exact ⟨spelled, hsame, earlier, later, hhistory, hlater, cached, hanswer⟩
  · rintro ⟨spelled, hsame, hsucceeded⟩
    exact find?_of_succeeded hsucceeded hsame

/-- The size of a cache is the number of places with a successful call since the last forgetting. -/
theorem size_after (start : Store) (history : List Action) :
    (after start history).cache.size =
      {place | ∃ spelled, Path.steps spelled = place ∧ Succeeded start history spelled}.ncard := by
  have hplaces : {place | ∃ spelled, Path.steps spelled = place ∧
      Succeeded start history spelled} = ((after start history).cache.keys.toFinset : Set _) := by
    ext place
    simp only [Set.mem_ofPred_eq, Finset.mem_coe, List.mem_toFinset]
    constructor
    · rintro ⟨spelled, rfl, hsucceeded⟩
      exact Cache.find?_ne_none_iff.mp (find?_of_succeeded hsucceeded (Path.same_iff.mpr rfl))
    · intro hplace
      obtain ⟨cached, -, rfl⟩ := List.mem_map.mp hplace
      obtain ⟨spelled, hsame, hsucceeded⟩ :=
        find?_ne_none_iff.mp (Cache.find?_ne_none_iff.mpr hplace)
      exact ⟨spelled, Path.same_iff.mp hsame, hsucceeded⟩
  rw [hplaces, Set.ncard_coe_finset,
    List.toFinset_card_of_nodup (sound_after start history).distinct]
  simp [Cache.size, Cache.keys]

/-- **Caches are coherent over whole sessions.** After any history, a call for a path succeeds if
and only if a call for the same place has succeeded since the templates were last forgotten, or the
file can be compiled now. A successful call gives the template that the first of these calls has
compiled, from the file as it was at that call. A call that fails changes nothing. The size of the
cache is the number of places for which a call has succeeded since the templates were last
forgotten. -/
theorem cache_coherent (start : Store) (history : List Action) (path : String) :
    ((∃ cached, answer start history path = .ok cached) ↔
      (∃ spelled, Path.same spelled path = true ∧ Succeeded start history spelled) ∨
        ∃ template, compileFile (after start history).store path = .ok template) ∧
    (∀ cached, answer start history path = .ok cached →
      FirstGiven start (history ++ [.get path]) path cached) ∧
    (∀ error, answer start history path = .error error →
      after start (history ++ [.get path]) = after start history) ∧
    (after start history).cache.size =
      {place | ∃ spelled, Path.steps spelled = place ∧
        Succeeded start history spelled}.ncard := by
  refine ⟨?_, ?_, ?_, size_after start history⟩
  · rw [← find?_ne_none_iff]
    unfold answer
    rcases (after start history).cache.get_outcome (after start history).store path with
      ⟨found, hfind, hget⟩ | ⟨hfind, error, hcompile, hget⟩ | ⟨hfind, template, hcompile, hget⟩
    · simp [hget, hfind]
    · simp [hget, hfind, hcompile]
    · simp [hget, hfind, hcompile]
  · intro cached hanswer
    exact firstGiven_of_find? (find?_of_answer hanswer (Path.same_iff.mpr rfl))
  · intro error hanswer
    rw [after_concat]
    unfold answer at hanswer
    rcases (after start history).cache.get_outcome (after start history).store path with
      ⟨found, -, hget⟩ | ⟨-, found, -, hget⟩ | ⟨-, template, -, hget⟩
    · exact absurd hanswer (by simp [hget])
    · simp only [step, hget]
    · exact absurd hanswer (by simp [hget])

/-- A store with one file, which is a template. -/
def templateStore (text : String) : Store :=
  ⟨[(["a"], .directory), (["a", "t"], .file text.toUTF8 0o644)], []⟩

/-- The file of a template changes after the template was asked for. Under another spelling of the
path the old template is given, and it stays the only one. -/
theorem cache_coherent_edited : ∃ cached,
    answer (templateStore "x") [.get "a/t", .change (templateStore "y")] "a/.//t" = .ok cached ∧
    cached.serial = 0 ∧
    FirstGiven (templateStore "x")
      ([.get "a/t", .change (templateStore "y")] ++ [.get "a/.//t"]) "a/.//t" cached ∧
    {place | ∃ spelled, Path.steps spelled = place ∧ Succeeded (templateStore "x")
      [.get "a/t", .change (templateStore "y")] spelled}.ncard = 1 := by
  have hserial : (answer (templateStore "x") [.get "a/t", .change (templateStore "y")]
      "a/.//t").toOption.map Cached.serial = some 0 := by
    decide +kernel
  have hsize : (after (templateStore "x")
      [.get "a/t", .change (templateStore "y")]).cache.size = 1 := by
    decide +kernel
  obtain ⟨-, hgiven, -, hcount⟩ := cache_coherent (templateStore "x")
    [.get "a/t", .change (templateStore "y")] "a/.//t"
  cases hanswer : answer (templateStore "x") [.get "a/t", .change (templateStore "y")]
      "a/.//t" with
  | error error => simp [hanswer, Except.toOption] at hserial
  | ok cached =>
    simp only [hanswer, Except.toOption, Option.map_some, Option.some.injEq] at hserial
    exact ⟨cached, rfl, hserial, hgiven cached hanswer, hcount.symm.trans hsize⟩

end Session

end Template

end DsdlHeaders
