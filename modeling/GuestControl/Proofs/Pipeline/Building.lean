import GuestControl.Pipeline.Basic
import Mathlib.Data.List.Basic

/-!
# What steps build

Every step that begins a command makes one command, in the order of the steps. Its
arguments are those that the steps after it give, up to the next such step; nothing is
reordered, merged or given to another command (`commands_getElem?_iff`). What stands
before all commands is dropped, and so is an option that is not given.
-/

namespace GuestControl

-- ---------------------------------------------------------------------------
-- The first argument of a name
-- ---------------------------------------------------------------------------

theorem Command.argument?_eq_some {c : Command} {name : String} {v : Argument} :
    c.argument? name = some v ↔
      ∃ before after, c.arguments = before ++ (name, v) :: after ∧ ∀ a ∈ before, a.1 ≠ name := by
  simp only [argument?, List.lookup_eq_some_iff, bne_iff_ne, ne_comm]

theorem Command.argument?_eq_none {c : Command} {name : String} :
    c.argument? name = none ↔ ∀ a ∈ c.arguments, a.1 ≠ name := by
  simp only [argument?, List.lookup_eq_none_iff, bne_iff_ne, ne_comm]

namespace Pipeline

-- ---------------------------------------------------------------------------
-- Steps
-- ---------------------------------------------------------------------------

namespace Step

def command? : Step → Option String
  | command name => some name
  | argument .. | optional .. => none

def argument? : Step → Option (String × Argument)
  | command _ => none
  | argument name value => some (name, value)
  | optional name value => value.map (name, ·)

def begins (s : Step) : Bool := s.command?.isSome

@[simp]
theorem begins_command (name : String) : (command name).begins = true := rfl

theorem command_or (s : Step) : (∃ name, s = command name) ∨ s.begins = false := by
  cases s with
  | command name => exact .inl ⟨name, rfl⟩
  | argument _ _ | optional _ _ => exact .inr rfl

end Step

def leading (steps : List Step) : List Step := steps.takeWhile fun s => !s.begins

/-- The arguments of a command that is begun right before the steps. -/
def given (steps : List Step) : List (String × Argument) := (leading steps).filterMap Step.argument?

variable {steps rest more : List Step} {cs : List Command} {c : Command} {s : Step} {k : Nat}
  {name : String}

theorem given_cons_command : given (.command name :: rest) = [] := rfl

theorem given_cons_of_not_begins (h : s.begins = false) :
    given (s :: rest) = s.argument?.toList ++ given rest := by
  have hleading : leading (s :: rest) = s :: leading rest := by simp [leading, h]
  rw [given, hleading, List.filterMap_cons]
  cases s.argument? with
  | _ => rfl

-- ---------------------------------------------------------------------------
-- One step
-- ---------------------------------------------------------------------------

theorem addArgument_concat (value : Argument) :
    addArgument name value (cs ++ [c]) =
      cs ++ [{ c with arguments := c.arguments ++ [(name, value)] }] := by
  induction cs with
  | nil => rfl
  | cons d cs ih =>
    -- more commands follow, so that the argument does not go to `d`
    obtain ⟨e, es, he⟩ : ∃ e es, cs ++ [c] = e :: es :=
      List.exists_cons_of_ne_nil (List.append_ne_nil_of_right_ne_nil _ (List.cons_ne_nil _ _))
    rw [List.cons_append, List.cons_append, ← ih, he, addArgument]
    exact List.cons_ne_nil e es

theorem addStep_concat (h : s.begins = false) :
    addStep (cs ++ [c]) s =
      cs ++ [{ c with arguments := c.arguments ++ s.argument?.toList }] := by
  cases s with
  | command _ => cases h
  | argument name value => exact addArgument_concat value
  | optional name value =>
    cases value with
    | none => simp [addStep, Step.argument?]
    | some value => exact addArgument_concat value

theorem addStep_nil (h : s.begins = false) : addStep [] s = [] := by
  cases s with
  | command _ => cases h
  | argument _ _ => rfl
  | optional _ value =>
    cases value with
    | _ => rfl

-- ---------------------------------------------------------------------------
-- All steps
-- ---------------------------------------------------------------------------

theorem build_cons_of_not_begins (h : s.begins = false) : build (s :: rest) = build rest := by
  rw [build, List.foldl_cons, addStep_nil h, build]

/-- Steps give their leading arguments to the last command that is there already, leave the
commands before it as they are, and add those that they would build on their own. -/
theorem foldl_addStep_concat (steps : List Step) (cs : List Command) (c : Command) :
    steps.foldl addStep (cs ++ [c]) =
      cs ++ { c with arguments := c.arguments ++ given steps } :: (build steps).commands := by
  induction steps generalizing cs c with
  | nil => simp [given, leading, build]
  | cons s rest ih =>
    obtain ⟨name, rfl⟩ | hs := s.command_or
    · have hbuild : (build (.command name :: rest)).commands =
          { name := name, arguments := given rest } :: (build rest).commands :=
        ih [] { name := name, arguments := [] }
      rw [hbuild, List.foldl_cons, addStep, ih, given_cons_command, List.append_nil,
        List.append_assoc]
      rfl
    · rw [List.foldl_cons, addStep_concat hs, ih, given_cons_of_not_begins hs,
        build_cons_of_not_begins hs, List.append_assoc]

theorem build_cons_command :
    (build (.command name :: rest)).commands =
      { name := name, arguments := given rest } :: (build rest).commands :=
  foldl_addStep_concat rest [] { name := name, arguments := [] }

theorem build_append_of_not_begins {before : List Step} (h : ∀ s ∈ before, s.begins = false) :
    build (before ++ steps) = build steps := by
  induction before with
  | nil => rfl
  | cons s before ih =>
    obtain ⟨hs, hbefore⟩ := List.forall_mem_cons.mp h
    rw [List.cons_append, build_cons_of_not_begins hs, ih hbefore]

theorem build_append_of_begins (h : ∀ s ∈ more.head?, s.begins = true) :
    (build (steps ++ more)).commands = (build steps).commands ++ (build more).commands := by
  cases more with
  | nil => simp [build]
  | cons s rest =>
    obtain ⟨name, rfl⟩ | hs := s.command_or
    · rw [build_cons_command, build, List.foldl_append, List.foldl_cons, addStep,
        foldl_addStep_concat]
      rfl
    · rw [h s rfl] at hs
      cases hs

theorem build_optional_none (before after : List Step) (name : String) :
    build (before ++ .optional name none :: after) = build (before ++ after) := by
  rw [build, build, List.foldl_append, List.foldl_append, List.foldl_cons, addStep]

theorem names_build (steps : List Step) :
    (build steps).names = steps.filterMap Step.command? := by
  induction steps with
  | nil => rfl
  | cons s rest ih =>
    obtain ⟨name, rfl⟩ | hs := s.command_or
    · rw [names, build_cons_command, List.map_cons, ← names, ih]
      rfl
    · rw [Step.begins, Option.isSome_eq_false_iff, Option.isNone_iff_eq_none] at hs
      rw [build_cons_of_not_begins (by rw [Step.begins, hs]; rfl), ih, List.filterMap_cons_none hs]

/-- The step at this place makes the command, with the arguments that the steps give which
come after it and before the next command. -/
structure Makes (steps : List Step) (i : Nat) (c : Command) : Prop where
  name : steps[i]? = some (.command c.name)
  arguments : c.arguments = given (steps.drop (i + 1))

theorem makes_zero : Makes (s :: rest) 0 c ↔ s = .command c.name ∧ c.arguments = given rest := by
  refine ⟨fun h => ⟨Option.some.inj h.name, h.arguments⟩, ?_⟩
  rintro ⟨rfl, harguments⟩
  exact ⟨rfl, harguments⟩

theorem makes_succ {i : Nat} : Makes (s :: rest) (i + 1) c ↔ Makes rest i c :=
  ⟨fun h => ⟨h.name, h.arguments⟩, fun h => ⟨h.name, h.arguments⟩⟩

/-- The commands are those that steps make, numbered in the order of the steps. -/
theorem commands_getElem?_iff : (build steps).commands[k]? = some c ↔
    ∃ i, Makes steps i c ∧ (steps.take i).countP Step.begins = k := by
  induction steps generalizing k with
  | nil =>
    refine ⟨nofun, ?_⟩
    rintro ⟨i, h, -⟩
    exact nomatch h.name
  | cons s rest ih =>
    rw [← Nat.or_exists_add_one]
    simp only [makes_zero, makes_succ, List.take_zero, List.countP_nil, List.take_succ_cons,
      List.countP_cons]
    obtain ⟨name, rfl⟩ | hs := s.command_or
    · obtain ⟨called, arguments⟩ := c
      rw [build_cons_command]
      cases k with
      | zero => simp [@eq_comm _ arguments]
      | succ k => simp [ih]
    · have hne : s ≠ .command c.name := by
        rintro rfl
        cases hs
      simp [build_cons_of_not_begins hs, hne, hs, ih]

/-- A command's argument of a name is given by the earliest step that gives one of this name. -/
theorem Makes.argument?_eq_some {i : Nat} {v : Argument} (h : Makes steps i c) :
    c.argument? name = some v ↔
      ∃ before s after, leading (steps.drop (i + 1)) = before ++ s :: after ∧
        s.argument? = some (name, v) ∧ ∀ t ∈ before, ∀ w, t.argument? ≠ some (name, w) := by
  rw [Command.argument?_eq_some, h.arguments, given]
  constructor
  · rintro ⟨first, last, hsplit, hfirst⟩
    obtain ⟨before, tail, hsteps, rfl, htail⟩ := List.filterMap_eq_append_iff.mp hsplit
    obtain ⟨skipped, s, after, rfl, hskipped, hs, -⟩ := List.filterMap_eq_cons_iff.mp htail
    refine ⟨before ++ skipped, s, after, by rw [hsteps, List.append_assoc], hs, fun t ht w hw => ?_⟩
    obtain ht | ht := List.mem_append.mp ht
    · exact hfirst _ (List.mem_filterMap.mpr ⟨t, ht, hw⟩) rfl
    · exact nomatch (hskipped t ht).symm.trans hw
  · rintro ⟨before, s, after, hsteps, hs, hbefore⟩
    refine ⟨before.filterMap Step.argument?, after.filterMap Step.argument?, ?_, ?_⟩
    · rw [hsteps, List.filterMap_append, List.filterMap_cons_some hs]
    · rintro ⟨called, w⟩ ha rfl
      obtain ⟨t, ht, hw⟩ := List.mem_filterMap.mp ha
      exact hbefore t ht w hw

theorem Makes.argument?_eq_none {i : Nat} (h : Makes steps i c) :
    c.argument? name = none ↔
      ∀ s ∈ leading (steps.drop (i + 1)), ∀ v, s.argument? ≠ some (name, v) := by
  rw [Command.argument?_eq_none, h.arguments, given]
  constructor
  · intro hnone s hs v hv
    exact hnone _ (List.mem_filterMap.mpr ⟨s, hs, hv⟩) rfl
  · rintro hnone ⟨called, v⟩ ha rfl
    obtain ⟨s, hs, hv⟩ := List.mem_filterMap.mp ha
    exact hnone s hs v hv

structure BuiltInOrder (steps : List Step) : Prop where
  names : (build steps).names = steps.filterMap Step.command?
  commands : ∀ k c, (build steps).commands[k]? = some c ↔
    ∃ i, Makes steps i c ∧ (steps.take i).countP Step.begins = k
  argument_some : ∀ i c, Makes steps i c → ∀ name v, c.argument? name = some v ↔
    ∃ before s after, leading (steps.drop (i + 1)) = before ++ s :: after ∧
      s.argument? = some (name, v) ∧ ∀ t ∈ before, ∀ w, t.argument? ≠ some (name, w)
  argument_none : ∀ i c, Makes steps i c → ∀ name, c.argument? name = none ↔
    ∀ s ∈ leading (steps.drop (i + 1)), ∀ v, s.argument? ≠ some (name, v)
  dropped : ∀ before : List Step, (∀ s ∈ before, s.begins = false) →
    build (before ++ steps) = build steps
  ungiven : ∀ before after name, steps = before ++ .optional name none :: after →
    build steps = build (before ++ after)
  concatenated : ∀ more : List Step, (∀ s ∈ more.head?, s.begins = true) →
    (build (steps ++ more)).commands = (build steps).commands ++ (build more).commands

/-- Each command of a pipeline has its own step and the arguments that follow this step, in
their order and with repetitions. Nothing else adds to it, and pipelines are put together
by building one after the other. -/
theorem built_in_order (steps : List Step) : BuiltInOrder steps where
  names := names_build steps
  commands _ _ := commands_getElem?_iff
  argument_some _ _ h _ _ := h.argument?_eq_some
  argument_none _ _ h _ := h.argument?_eq_none
  dropped _ h := build_append_of_not_begins h
  ungiven before after name h := h ▸ build_optional_none before after name
  concatenated _ h := build_append_of_begins h

example : build [.argument "Force" (.bool true), .command "Get-VM", .optional "Name" none,
    .argument "Id" (.int 1), .argument "Id" (.int 2), .command "Stop-VM"] =
    ⟨[⟨"Get-VM", [("Id", .int 1), ("Id", .int 2)]⟩, ⟨"Stop-VM", []⟩]⟩ := rfl

end Pipeline

end GuestControl
