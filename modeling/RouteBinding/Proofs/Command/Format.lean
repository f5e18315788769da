import RouteBinding.Command.Run
import RouteBinding.Proofs.Config.Store

/-!
# The format of data

Where no option of the program names a format, the console is opened with the one that the user's file asks for. That is
the format in force unless the project's file sets another one (`openConsole_format`).
-/

namespace RouteBinding

open ConfigStore

theorem OutputFormat.ofName?_name (f : OutputFormat) : ofName? f.name = some f := by
  cases f <;> rfl

/-- The format that the data of a file asks for. It leaves the choice to the terminal where it sets no format, or
something that is the name of none. -/
def Tree.format (t : Tree) : OutputFormat :=
  ((t.value? .format).bind OutputFormat.ofName?).getD .auto

theorem Tree.format_eq (t : Tree) :
    t.format = (OutputFormat.ofName? ((t.value? .format).getD "auto")).getD .auto := by
  rw [format]
  cases t.value? .format <;> rfl

namespace Command

variable {h h' : Host} {userTree projectTree : Tree} {u p : Config} {env : Settings} {options : Arguments}

/-- The format of the user is looked for in the user's file alone. -/
theorem userFormat_apply (hmade : h.makeDirectory (configDirectory h) = .ok h')
    (huserFile : layer? h' (userFile h') = some userTree) (huser : Config.ofTree userTree = .ok u) :
    userFormat h = (.ok userTree.format, h') := by
  have hformat : u.output.format = (userTree.value? .format).getD "auto" :=
    Config.value_of_ofTree huser .format
  rw [userFormat, Action.bind_of_ok (ensured_of_ok hmade), Action.bind_of_ok (Action.get_apply h'),
    user_eq_ok.2 ⟨userTree, huserFile, huser⟩]
  dsimp only
  rw [Action.pure_apply, hformat, Tree.format_eq]

theorem openConsole_apply (hjson : options.has "json" = false) (hplain : options.has "plain" = false)
    {f : OutputFormat} (hformat : userFormat h = (.ok f, h')) :
    openConsole options h =
      (.ok (Console.forHost h' f (options.has "no-color") (options.has "quiet") (options.has "verbose")), h') := by
  rw [openConsole, hjson, hplain]
  simp only [Bool.false_eq_true, if_false]
  rw [Action.bind_of_ok hformat, Action.bind_of_ok (Action.get_apply h'), Action.pure_apply]

/-- The environment sets no format. -/
theorem format_of_environment (henv : environment h = .ok env) : env.format = none := by
  obtain ⟨fail, -, hfail⟩ := bind_eq_ok.1 henv
  cases hfail
  rfl

/-- The console is opened with the format that the user's file asks for. It is the one in force exactly if the
project's file sets no format, or asks for the same one. -/
theorem openConsole_format (hmade : h.makeDirectory (configDirectory h) = .ok h')
    (huserFile : layer? h' (userFile h') = some userTree) (huser : Config.ofTree userTree = .ok u)
    (hprojectFile : layer? h' (projectFile h') = some projectTree) (hproject : Config.ofTree projectTree = .ok p)
    (henv : environment h' = .ok env) (hvalid : env.Valid)
    (hjson : options.has "json" = false) (hplain : options.has "plain" = false) :
    ∃ c, (loadResolved .none h).1 = .ok c ∧
      openConsole options h =
        (.ok (Console.forHost h' userTree.format (options.has "no-color") (options.has "quiet")
          (options.has "verbose")), h') ∧
      ∀ f : OutputFormat, c.output.format = f.name →
        (userTree.format = f ↔ projectTree.value? .format = none ∨ projectTree.format = userTree.format) := by
  have hcommand : Settings.none.Valid := by
    rintro ⟨⟩ a ⟨⟩
  obtain ⟨c, hc, hvalue⟩ := exists_resolve_of_valid huserFile huser hprojectFile hproject henv hvalid hcommand
  refine ⟨c, ?_, openConsole_apply hjson hplain (userFormat_apply hmade huserFile huser), fun f hf => ?_⟩
  · rw [loadResolved_apply hmade]
    exact hc
  · have hinForce : f.name = (projectTree.value? .format <|> userTree.value? .format).getD "auto" := by
      rw [← hf]
      show c.value .format = _
      rw [hvalue, show env.value? .format = none from format_of_environment henv]
      rfl
    -- what is in force is what the project's file asks for, and what the user's does where the project's has nothing
    cases hset : projectTree.value? .format with
    | none =>
      rw [hset] at hinForce
      have hasked : userTree.format = f := by
        rw [Tree.format_eq, ← show f.name = (userTree.value? .format).getD "auto" from hinForce,
          OutputFormat.ofName?_name]
        rfl
      exact ⟨fun _ => .inl rfl, fun _ => hasked⟩
    | some name =>
      rw [hset] at hinForce
      obtain rfl : f.name = name := hinForce
      have hasked : projectTree.format = f := by
        rw [Tree.format, hset, Option.bind_some, OutputFormat.ofName?_name]
        rfl
      rw [hasked]
      simp [eq_comm]

/-- A host on which only the project's file sets a format. -/
def formattedHost : Host :=
  configuredHost "\x7b\x7d" "\x7b\"output\": \x7b\"format\": \"json\"\x7d\x7d" []

/-- The format in force is one, and the console is opened with another. -/
theorem openConsole_format_formattedHost :
    ∃ c, (loadResolved .none formattedHost).1 = .ok c ∧ c.output.format = OutputFormat.json.name ∧
      (openConsole .empty formattedHost).1 = .ok ⟨.plain, false, false, false⟩ := by
  have hmade : formattedHost.makeDirectory (configDirectory formattedHost) = .ok formattedHost :=
    makeDirectory_configuredHost (by decide +kernel)
  have huser : (layer? formattedHost (userFile formattedHost)).map (fun t => (Config.ofTree t, t.format)) =
      some (.ok .default, .auto) := by decide +kernel
  have hproject : (layer? formattedHost (projectFile formattedHost)).map Config.ofTree =
      some (.ok ⟨.default, ⟨"json"⟩⟩) := by decide +kernel
  have henv : environment formattedHost = .ok .none := by decide +kernel
  have hinForce : ConfigStore.resolve formattedHost .none = .ok ⟨.default, ⟨"json"⟩⟩ := by decide +kernel
  obtain ⟨userTree, huserFile, huser⟩ := Option.map_eq_some_iff.1 huser
  obtain ⟨projectTree, hprojectFile, hproject⟩ := Option.map_eq_some_iff.1 hproject
  have hjson : Arguments.empty.has "json" = false := rfl
  have hplain : Arguments.empty.has "plain" = false := rfl
  obtain ⟨c, hc, hopened, -⟩ := openConsole_format hmade huserFile (congrArg Prod.fst huser) hprojectFile hproject
    henv (by rintro ⟨⟩ a ⟨⟩) hjson hplain
  refine ⟨c, hc, ?_, ?_⟩
  · rw [loadResolved_apply hmade, hinForce] at hc
    cases hc
    rfl
  · rw [hopened, show userTree.format = .auto from congrArg Prod.snd huser]
    rfl

end Command

end RouteBinding
