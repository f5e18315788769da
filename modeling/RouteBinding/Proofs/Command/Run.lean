import RouteBinding.Command.Run
import RouteBinding.Proofs.Config.Store
import RouteBinding.Proofs.Console

/-!
# Running the program

What a run comes to that opens a console and does what a command line asks for (`Command.run_apply`). What is said about
a failure, and the log that is kept of a breakdown, get into no file with the name of the user's and have no part in the
configuration that is loaded (`Command.spares_settle`, `Command.load_report`); a run that fails does not end with the
exit code zero.
-/

open RouteBinding.Action (Spares)

namespace RouteBinding

open ConfigStore

namespace Command

variable {h h₁ h' : Host} {place : Place} {c : Console} {config : Config} {items : List String} {options : Arguments}

/-- The log of a breakdown has a name of its own. -/
theorem exists_getLast?_logFile (h : Host) :
    ∃ name, (Path.names (logFile h)).getLast? = some name ∧ name ≠ ".." ∧ name ≠ "config.json" := by
  obtain ⟨last, hlast⟩ := Path.getLast?_names_append ("logs/crash-" ++ h.time) ".log" (by decide) (by decide)
  have hends (name : String) (hname : name = last ++ ".log") : name.toList.getLast? = some 'g' := by
    rw [hname, String.toList_append]
    simp
  refine ⟨last ++ ".log", ?_, ?_, ?_⟩
  · have hrelative : Path.isAbsolute ("logs/crash-" ++ h.time ++ ".log") = false := by
      rw [Path.isAbsolute, Text.startsWith, String.toList_append, String.toList_append]
      rfl
    rw [logFile, Path.names_append hrelative, List.getLast?_append, hlast]
    rfl
  · intro heq
    have hlast := hends ".." heq.symm
    exact absurd hlast (by decide)
  · intro heq
    have hlast := hends "config.json" heq.symm
    exact absurd hlast (by decide)

/-! ## Sparing the user's file -/

/-- A directory that is made spares every file. -/
theorem spares_makeDirectory (path : Host → String) :
    Spares place (ConfigStore.ensured path) := by
  refine Action.spares_get.bind fun h => ?_
  refine (Action.spares_change fun h₁ h' hmade => ?_).bind fun _ => Action.spares_pure _
  obtain ⟨t, way, rfl, -, hgrows, -⟩ := Host.makeDirectory_eq_ok hmade
  exact hgrows.files place

/-- To look up the format spares every file. -/
theorem spares_userFormat : Spares place userFormat := by
  refine (spares_makeDirectory _).bind fun _ => Action.spares_get.bind fun h => ?_
  split
  · exact Action.spares_pure _
  · exact Action.spares_pure _
  · exact Action.spares_throw _

/-- To open the console spares every file. -/
theorem spares_openConsole (options : Arguments) : Spares place (openConsole options) := by
  have hopened (format : OutputFormat) : Spares place (do
      return Console.forHost (← get) format (options.has "no-color") (options.has "quiet") (options.has "verbose")) :=
    Action.spares_get.bind fun h => Action.spares_pure _
  unfold openConsole
  split_ifs
  · exact hopened .json
  · exact hopened .plain
  · exact spares_userFormat.bind hopened

/-- To report an error spares every file. -/
theorem spares_error (c : Console) (message : String) : Spares place (c.error message) := by
  intro h
  rcases c.say_cases ("Error: " ++ message) (TextStyle.boldRed.around "Error:" ++ " " ++ message) h with
    ⟨-, line, hsaid⟩ | ⟨-, hfailed⟩
  · rw [Console.error, hsaid]
    rfl
  · rw [Console.error, hfailed]

/-- What is kept and said of a failure gets into no file with the name of the user's. -/
theorem spares_report (c : Console) (e : Failure) (hplace : place.getLast? = some "config.json") :
    Spares place (report c e) := by
  cases e with
  | breakdown b =>
    refine Action.spares_get.bind fun h => (Action.spares_change fun h₁ h' hwritten => ?_).bind fun _ =>
      (spares_error c _).bind fun _ => Action.spares_pure _
    obtain ⟨t, way, log, rfl, hway, hgrows, hfollow, -⟩ := Host.replaceText_eq_ok hwritten
    obtain ⟨name, hname, hup, hconfig⟩ := exists_getLast?_logFile h
    have hlog : log.getLast? = some name := FileTree.getLast?_of_follow hfollow (Host.way_getLast? hway hname) hup
    have hne : place ≠ log := by
      rintro rfl
      rw [hplace] at hlog
      exact hconfig (Option.some.inj hlog).symm
    exact (FileTree.read?_put_of_ne hne).trans (hgrows.files place)
  | _ => exact (spares_error c _).bind fun _ => Action.spares_pure _

/-! ## Runs -/

/-- Opening a console makes the directory of the configuration, or nothing. The options and the environment say how it
writes messages. -/
theorem openConsole_eq_ok (hopened : openConsole options h = (.ok c, h₁)) :
    (h₁ = h ∨ h.makeDirectory (configDirectory h) = .ok h₁) ∧ c.quiet = options.has "quiet" ∧
      c.colourless = (options.has "no-color" || Console.colourIsOff h) := by
  have hconsole {format : OutputFormat} {h₀ : Host} (henv : h₀.environment = h.environment) (hget : (do
      return Console.forHost (← get) format (options.has "no-color") (options.has "quiet") (options.has "verbose") :
        Action Console) h₀ = (.ok c, h₁)) :
      h₁ = h₀ ∧ c.quiet = options.has "quiet" ∧
        c.colourless = (options.has "no-color" || Console.colourIsOff h) := by
    cases hget
    refine ⟨rfl, rfl, ?_⟩
    rw [Console.colourIsOff, Host.setting?, Host.setting?, ← henv]
    rfl
  unfold openConsole at hopened
  split_ifs at hopened
  · obtain ⟨rfl, hwrites⟩ := hconsole rfl hopened
    exact ⟨.inl rfl, hwrites⟩
  · obtain ⟨rfl, hwrites⟩ := hconsole rfl hopened
    exact ⟨.inl rfl, hwrites⟩
  · obtain ⟨format, h₀, hformat, hget⟩ := Step.bind_eq_ok.1 hopened
    obtain ⟨path, h₀', hmade, hformat⟩ := Step.bind_eq_ok.1 hformat
    have hmade := (ensured_eq_ok.1 hmade).1
    rw [Action.bind_of_ok (Action.get_apply h₀')] at hformat
    have hsame : h₀ = h₀' := by
      cases huser : user h₀' with
      | ok config =>
        rw [huser] at hformat
        exact (Prod.mk.inj hformat).2.symm
      | error e =>
        rw [huser] at hformat
        cases e with
        | config e => exact (Prod.mk.inj hformat).2.symm
        | _ => cases hformat
    subst hsame
    have henv : h₀.environment = h.environment := by
      obtain ⟨t, way, rfl, -⟩ := Host.makeDirectory_eq_ok hmade
      rfl
    obtain ⟨rfl, hwrites⟩ := hconsole henv hget
    exact ⟨.inr hmade, hwrites⟩

/-- A console is opened where a configuration is loaded. -/
theorem exists_openConsole (hload : ConfigStore.load h = (.ok config, h₁)) (options : Arguments) :
    ∃ c h', openConsole options h = (.ok c, h') := by
  obtain ⟨hmade, huser⟩ := load_eq_ok.1 hload
  unfold openConsole
  split_ifs
  · exact ⟨_, _, rfl⟩
  · exact ⟨_, _, rfl⟩
  · have hformat : userFormat h = (.ok ((OutputFormat.ofName? config.output.format).getD .auto), h₁) := by
      rw [userFormat, Action.bind_of_ok (ensured_of_ok hmade), Action.bind_of_ok (Action.get_apply h₁), huser]
      rfl
    rw [Action.bind_of_ok hformat]
    exact ⟨_, _, rfl⟩

/-- What is done about the failure of a request: its command says what it fails for, or leaves that to the program. -/
def settle (c : Console) (request : Request) (e : Failure) : Action Nat :=
  tryCatch (do
    if request.leaves e then throw e
    e.lines.forM c.error
    return e.exitCode) (report c)

/-- What to do about a breakdown is left to the program. -/
theorem settle_breakdown (c : Console) (request : Request) (b : Breakdown) (h : Host) :
    settle c request (.breakdown b) h = report c (.breakdown b) h := by
  rw [settle, Action.tryCatch_apply]
  cases request <;> rfl

/-- What is done for a request and about its failure. -/
theorem answer_apply (c : Console) (request : Request) (h : Host) :
    (tryCatch (request.answer c) (report c) : Action Nat) h =
      match perform c request h with
      | (.ok _, h') => (.ok 0, h')
      | (.error e, h') => settle c request e h' := by
  have hanswer : request.answer c h =
      match perform c request h with
      | (.ok _, h') => (.ok 0, h')
      | (.error e, h') => (do
          if request.leaves e then throw e
          e.lines.forM c.error
          return e.exitCode : Action Nat) h' := by
    rw [Request.answer, Action.tryCatch_apply]
    rcases hdone : perform c request h with ⟨outcome, h'⟩
    cases outcome with
    | ok done => rw [Action.bind_of_ok hdone]; rfl
    | error e => rw [Action.bind_of_error hdone]
  rw [Action.tryCatch_apply, hanswer]
  rcases perform c request h with ⟨outcome, h'⟩
  cases outcome with
  | ok done => rfl
  | error e => exact (Action.tryCatch_apply _ _ _).symm

/-- A run opens a console and does what is asked for there; what fails is settled. -/
theorem run_apply {call : Call} {request : Request} (hread : Call.read items = .ok call)
    (hrequest : call.request = .ok request) :
    run items h =
      match openConsole call.options h with
      | (.error e, h₁) => report (Console.forHost h₁ .auto false false false) e h₁
      | (.ok c, h₁) =>
        match perform c request h₁ with
        | (.ok _, h₂) => (.ok 0, h₂)
        | (.error e, h₂) => settle c request e h₂ := by
  rw [run, hread]
  dsimp only
  rw [hrequest]
  dsimp only
  rcases hopened : openConsole call.options h with ⟨outcome, h₁⟩
  have hlift : (ExceptT.lift (openConsole call.options).run : Action (Except Failure Console)) h =
      (.ok outcome, h₁) := by
    show (Except.ok (openConsole call.options h).1, (openConsole call.options h).2) = _
    rw [hopened]
  rw [Action.bind_of_ok hlift]
  cases outcome with
  | error e => rfl
  | ok c =>
    exact answer_apply c request h₁

/-- No failure exits with zero. -/
theorem exitCode_ne_zero (e : Failure) : e.exitCode ≠ 0 := by
  cases e <;> simp [Failure.exitCode]

/-- A failure that is reported does not exit with zero. -/
theorem report_ne_zero (c : Console) (e : Failure) : (report c e h).1 ≠ .ok 0 := by
  intro hzero
  obtain ⟨h', hzero⟩ := Action.exists_of_fst hzero
  cases e with
  | breakdown b =>
    obtain ⟨_, _, -, hlog⟩ := Step.bind_eq_ok.1 hzero
    obtain ⟨_, _, -, hsay⟩ := Step.bind_eq_ok.1 hlog
    obtain ⟨_, _, -, hcode⟩ := Step.bind_eq_ok.1 hsay
    cases hcode
  | _ =>
    obtain ⟨_, _, -, hcode⟩ := Step.bind_eq_ok.1 hzero
    cases hcode

/-- A failure that is settled does not exit with zero. -/
theorem settle_ne_zero (c : Console) (request : Request) (e : Failure) : (settle c request e h).1 ≠ .ok 0 := by
  rw [settle, Action.tryCatch_apply]
  split
  · rename_i code h' hanswered
    by_cases hleaves : request.leaves e
    · rw [if_pos hleaves] at hanswered
      cases hanswered
    · rw [if_neg hleaves] at hanswered
      obtain ⟨_, _, -, hcode⟩ := Step.bind_eq_ok.1 hanswered
      cases hcode
      intro hzero
      exact exitCode_ne_zero e (Except.ok.inj hzero)
  · exact report_ne_zero c _

/-- To settle a failure spares the settings of the user. -/
theorem spares_settle (c : Console) (request : Request) (e : Failure) (hplace : place.getLast? = some "config.json") :
    Spares place (settle c request e) := by
  have hanswer : Spares place (do
      if request.leaves e then throw e
      e.lines.forM c.error
      return e.exitCode : Action Nat) := by
    by_cases hleaves : request.leaves e
    · rw [if_pos hleaves]
      exact Action.spares_throw e
    · rw [if_neg hleaves]
      exact (Action.spares_forM fun line _ => spares_error c line).bind fun _ => Action.spares_pure _
  intro h
  have hfiles := hanswer h
  rw [settle, Action.tryCatch_apply]
  split
  · rename_i code h' hanswered
    rw [hanswered] at hfiles
    exact hfiles
  · rename_i e' h' hanswered
    rw [hanswered] at hfiles
    exact (spares_report c e' hplace h').trans hfiles

/-! ## What a report leaves -/

/-- The messages of a host have no part in what is loaded. -/
theorem load_note (hload : ConfigStore.load h = (.ok config, h)) (line : String) :
    ConfigStore.load (h.note line) = (.ok config, h.note line) := by
  obtain ⟨hmade, huser⟩ := load_eq_ok.1 hload
  have hpath : userFile (h.note line) = userFile h := rfl
  exact load_eq_ok.2 ⟨Host.makeDirectory_note hmade line, user_of_same huser rfl rfl hpath⟩

/-- A layer is what stands at the place of its path. -/
theorem layer?_of_place {path : String} (hplace : h.place path = .ok place) (hplace' : h'.place path = .ok place)
    (hfile : h'.files.read? place = h.files.read? place) : layer? h' path = layer? h path := by
  have hisFile : h'.isFile path = h.isFile path := by
    rw [Host.isFile, Host.isFile, hplace, hplace']
    show Except.ok _ = Except.ok _
    rw [FileTree.isFile, FileTree.isFile, hfile]
  have hread : h'.readText? path = h.readText? path := by
    rw [Host.readText?, Host.readText?, hplace, hplace']
    show (h'.files.read? place).bind _ = (h.files.read? place).bind _
    rw [hfile]
  rw [layer?, layer?, readJson?, readJson?, hisFile, hread]

/-- The log of a breakdown has no part in what is loaded. -/
theorem load_of_log {text : String} (hwritten : h.replaceText (logFile h) text = .ok h')
    (hfile : h.isFile (userFile h) = .ok true) (hload : ConfigStore.load h = (.ok config, h)) :
    ConfigStore.load h' = (.ok config, h') := by
  obtain ⟨hmade, huser⟩ := load_eq_ok.1 hload
  obtain ⟨t, hlayer, ht⟩ := user_eq_ok.1 huser
  refine load_eq_ok.2 ⟨makeDirectory_of_replaceText hmade hwritten, user_eq_ok.2 ⟨t, ?_, ht⟩⟩
  obtain ⟨files, way, log, rfl, hway, hgrows, hfollow, hdirectory⟩ := Host.replaceText_eq_ok hwritten
  rw [← hlayer]
  cases hplace : h.place (userFile h) with
  | error obstacle =>
    rw [Host.isFile, hplace] at hfile
    cases obstacle <;> cases hfile
  | ok place =>
    -- the log has another name than the user's file
    obtain ⟨name, hname, hup, hconfig⟩ := exists_getLast?_logFile h
    have hlog : log.getLast? = some name := FileTree.getLast?_of_follow hfollow (Host.way_getLast? hway hname) hup
    have hne : place ≠ log := by
      rintro rfl
      rw [getLast?_place_userFile hplace] at hlog
      exact hconfig (Option.some.inj hlog).symm
    obtain ⟨way', hway', hfollow'⟩ := bind_eq_ok.1 hplace
    refine layer?_of_place hplace (bind_eq_ok.2 ⟨way', hway', ?_⟩) ?_
    · exact FileTree.follow_put (hgrows.follow_eq hfollow') hdirectory
    · exact (FileTree.read?_put_of_ne hne).trans (hgrows.files place)

/-- The log of a breakdown and what is said of it have no part in what is loaded. -/
theorem load_report (c : Console) (b : Breakdown) (hfile : h.isFile (userFile h) = .ok true)
    (hload : ConfigStore.load h = (.ok config, h)) :
    ConfigStore.load (report c (.breakdown b) h).2 = (.ok config, (report c (.breakdown b) h).2) := by
  -- a log is kept, or nothing; then a line is said, or nothing
  rw [report, Action.bind_of_ok (Action.get_apply h)]
  cases hwritten : h.replaceText (logFile h) "The run broke off.\n" with
  | error b' =>
    have hchange :
        Action.change (·.replaceText (logFile h) "The run broke off.\n") h = (.error (.breakdown b'), h) := by
      rw [Action.change, Action.bind_of_ok (Action.get_apply h), hwritten]
      rfl
    rw [Action.bind_of_error hchange]
    exact hload
  | ok h₁ =>
    have hload₁ : ConfigStore.load h₁ = (.ok config, h₁) := load_of_log hwritten hfile hload
    have hchange : Action.change (·.replaceText (logFile h) "The run broke off.\n") h = (.ok ⟨⟩, h₁) :=
      Action.change_of_ok hwritten
    rw [Action.bind_of_ok hchange]
    rcases c.say_cases ("Error: " ++ ("Unexpected error. Debug log: " ++ logFile h))
        (TextStyle.boldRed.around "Error:" ++ " " ++ ("Unexpected error. Debug log: " ++ logFile h)) h₁ with
      ⟨-, line, hsaid⟩ | ⟨-, hfailed⟩
    · rw [Console.error, Action.bind_of_ok hsaid]
      exact load_note hload₁ line
    · rw [Console.error, Action.bind_of_error hfailed]
      exact hload₁

end Command

end RouteBinding
