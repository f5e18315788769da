import RouteBinding.Command.Sources
import RouteBinding.Proofs.Command.Run
import RouteBinding.Proofs.Text.LetterCase

/-!
# Changing a setting by a command

A command that changes a setting of the user leaves the user's file as it is, or the file is read afterwards as the
configuration of before with this one setting changed (`run_changeConfig`). It fails in the first case, and in the second
one too if it cannot show the message that the setting is changed. A truth value can be set by a variable of the
environment as well, which refuses what it does not know; the command takes it for false (`run_failOnWarnings`).
-/

open RouteBinding.Action (Spares SparesUnlessDone)

namespace RouteBinding

open ConfigStore

namespace Command

variable {h h₁ h' : Host} {place : Place} {c : Console} {config : Config} {key value : String} {items : List String}
  {options : Arguments}

theorem spares_load : Spares place ConfigStore.load :=
  (spares_makeDirectory _).bind fun _ => Action.spares_get.bind fun _ => Action.spares_ofExcept _ _

/-- A configuration that is not saved changes no file. -/
theorem sparesUnlessDone_save : SparesUnlessDone place (ConfigStore.save config) := by
  exact (spares_makeDirectory _).bind_unlessDone fun _ => Action.spares_get.bind_unlessDone fun h =>
    Action.sparesUnlessDone_change _

/-! ## A change that is saved -/

/-- The change of a setting gets into the user's file: the configuration is there, the key names a setting that accepts
the value, and the new configuration can be saved. -/
structure Savable (h : Host) (key value : String) (config : Config) (k : Setting) : Prop where
  loads : (ConfigStore.load h).1 = .ok config
  names : key = k.owner ++ "." ++ k.name
  accepts : k.Accepts (k.ofText value)
  saves : (ConfigStore.save (config.put k (k.ofText value)) h).1 = .ok ⟨⟩

/-- What is said of a setting that is changed. -/
def changedText (k : Setting) (value : String) : String :=
  "Set " ++ k.label ++ " = " ++ k.shown (k.ofText value)

/-- A change that gets into the file is saved, and then said to be done. -/
theorem changeConfig_of_savable {k : Setting} (hsavable : Savable h key value config k)
    (hsave : ConfigStore.save (config.put k (k.ofText value)) h = (.ok ⟨⟩, h')) (c : Console) :
    changeConfig c key value h = c.success (changedText k value) h' := by
  obtain ⟨h₁, hload⟩ := Action.exists_of_fst hsavable.loads
  have hset : config.set (Text.split '.' key) value =
      .ok (config.put k (k.ofText value), k.scalar (k.ofText value)) :=
    (Config.set_eq_ok_iff (valid_of_load hload)).2 ⟨k, hsavable.names, hsavable.accepts, rfl, rfl⟩
  rw [← save_again (load_eq_ok.1 hload).1] at hsave
  rw [changeConfig, Action.bind_of_ok hload, hset, Action.bind_of_ok (Action.ofExcept_eq_ok.2 ⟨rfl, rfl⟩)]
  dsimp only
  rw [Action.bind_of_ok hsave, Console.displayed, k.display?_scalar, changedText, Setting.label, ← hsavable.names]
  rfl

/-- A change that does not get into the file fails, and no file is changed. -/
theorem changeConfig_of_not_savable (hnot : ∀ config k, ¬ Savable h key value config k) (c : Console) :
    ∃ e h', changeConfig c key value h = (.error e, h') ∧ ∀ place, h'.files.read? place = h.files.read? place := by
  rcases hload : ConfigStore.load h with ⟨outcome, h₁⟩
  have hfiles₁ (place : Place) : h₁.files.read? place = h.files.read? place := by
    have hspares : Spares place ConfigStore.load := spares_load
    have hfiles := hspares h
    rwa [hload] at hfiles
  cases outcome with
  | error e => exact ⟨e, h₁, Action.bind_of_error hload _, hfiles₁⟩
  | ok config =>
    rw [changeConfig, Action.bind_of_ok hload]
    cases hset : config.set (Text.split '.' key) value with
    | error fault => exact ⟨.setting key fault, h₁, rfl, hfiles₁⟩
    | ok found =>
      obtain ⟨changed, new⟩ := found
      rw [Action.bind_of_ok (Action.ofExcept_eq_ok.2 ⟨rfl, rfl⟩)]
      dsimp only
      obtain ⟨k, hkey, haccepts, rfl, -⟩ := (Config.set_eq_ok_iff (valid_of_load hload)).1 hset
      rcases hsave : ConfigStore.save (config.put k (k.ofText value)) h₁ with ⟨outcome, h₂⟩
      cases outcome with
      | ok done =>
        rw [save_again (load_eq_ok.1 hload).1] at hsave
        exact absurd ⟨congrArg Prod.fst hload, hkey, haccepts, congrArg Prod.fst hsave⟩ (hnot config k)
      | error e =>
        refine ⟨e, h₂, Action.bind_of_error hsave _, fun place => ?_⟩
        have hspares : SparesUnlessDone place (ConfigStore.save (config.put k (k.ofText value))) :=
          sparesUnlessDone_save
        have hfiles := hspares h₁ e (congrArg Prod.fst hsave)
        rw [hsave] at hfiles
        exact hfiles.trans (hfiles₁ place)

/-- A change gets into the file whether the directory has been made or not. -/
theorem savable_opened {k : Setting} (hopened : h' = h ∨ h.makeDirectory (configDirectory h) = .ok h') :
    Savable h' key value config k ↔ Savable h key value config k := by
  rcases hopened with rfl | hmade
  · exact Iff.rfl
  · constructor
    · rintro ⟨hloads, hnames, haccepts, hsaves⟩
      exact ⟨load_again hmade ▸ hloads, hnames, haccepts, save_again hmade _ ▸ hsaves⟩
    · rintro ⟨hloads, hnames, haccepts, hsaves⟩
      exact ⟨(load_again hmade).symm ▸ hloads, hnames, haccepts, (save_again hmade _).symm ▸ hsaves⟩

/-- What is said of a setting that is changed need not be shown, or can be: messages that inform may be left out, and
those that are not marked up are written as they are. -/
def CanTell (options : Arguments) (h : Host) (message : String) : Prop :=
  options.has "quiet" ∨ options.has "no-color" ∨ Console.colourIsOff h ∨
    (h.renderer.message? (TextStyle.green.around message)).isSome

/-- What is done is said, or left out, where it can be told; where it cannot the run breaks off. -/
theorem success_cases {message : String} (hquiet : c.quiet = options.has "quiet")
    (hcolourless : c.colourless = (options.has "no-color" || Console.colourIsOff h))
    (hrenderer : h'.renderer = h.renderer) :
    (CanTell options h message ∧
        ((c.success message h' = (.ok ⟨⟩, h')) ∨ ∃ line, c.success message h' = (.ok ⟨⟩, h'.note line))) ∨
      ¬ CanTell options h message ∧ c.success message h' = (.error (.breakdown .badMarkup), h') := by
  have htells : CanTell options h message ↔ c.quiet ∨ c.Shows h' (TextStyle.green.around message) := by
    rw [CanTell, Console.Shows, hquiet, hcolourless, hrenderer, Bool.or_eq_true, or_assoc]
  rw [htells, Console.success]
  by_cases hleft : c.quiet
  · rw [if_pos hleft]
    exact .inl ⟨.inl hleft, .inl rfl⟩
  · rw [if_neg hleft]
    rcases c.say_cases message (TextStyle.green.around message) h' with ⟨hshows, line, hsaid⟩ | ⟨hnot, hfailed⟩
    · exact .inl ⟨.inr hshows, .inr ⟨line, hsaid⟩⟩
    · exact .inr ⟨fun htells => htells.elim hleft hnot, hfailed⟩

/-- The command line of a request to change a setting. -/
theorem exists_call (hrequest : requestOf? items = some (.changeConfig key value)) :
    ∃ call, Call.read items = .ok call ∧ call.request = .ok (.changeConfig key value) := by
  unfold requestOf? at hrequest
  split at hrequest
  · exact ⟨_, ‹_›, toOption_eq_some.1 hrequest⟩
  · cases hrequest

/-- A run that changes a setting ends behind what it has saved: it is done, with a message or none, or what it has to say
cannot be told and a breakdown is reported. -/
theorem run_of_savable {call : Call} {k : Setting} (hread : Call.read items = .ok call)
    (hrequest : call.request = .ok (.changeConfig key value)) (hsavable : Savable h key value config k)
    (hsave : ConfigStore.save (config.put k (k.ofText value)) h = (.ok ⟨⟩, h₁)) :
    (CanTell call.options h (changedText k value) ∧
        (run items h = (.ok 0, h₁) ∨ ∃ line, run items h = (.ok 0, h₁.note line))) ∨
      ¬ CanTell call.options h (changedText k value) ∧
        ∃ c, run items h = report c (.breakdown .badMarkup) h₁ := by
  obtain ⟨h₀, hload⟩ := Action.exists_of_fst hsavable.loads
  obtain ⟨c, h', hopened⟩ := exists_openConsole hload call.options
  obtain ⟨hmade, hquiet, hcolourless⟩ := openConsole_eq_ok hopened
  have hsave' : ConfigStore.save (config.put k (k.ofText value)) h' = (.ok ⟨⟩, h₁) := by
    rcases hmade with rfl | hmade
    · exact hsave
    · exact (save_again hmade _).trans hsave
  have hrenderer : h₁.renderer = h.renderer := by
    obtain ⟨t, place, content, rfl, -⟩ := files_of_save hsave
    rfl
  have hdone : perform c (.changeConfig key value) h' = c.success (changedText k value) h₁ :=
    changeConfig_of_savable ((savable_opened hmade).2 hsavable) hsave' c
  have hrun := run_apply (h := h) hread hrequest
  rw [hopened] at hrun
  dsimp only at hrun
  rw [hdone] at hrun
  rcases success_cases hquiet hcolourless hrenderer with ⟨htells, hsaid | ⟨line, hsaid⟩⟩ | ⟨hnot, hfailed⟩
  · rw [hsaid] at hrun
    exact .inl ⟨htells, .inl hrun⟩
  · rw [hsaid] at hrun
    exact .inl ⟨htells, .inr ⟨line, hrun⟩⟩
  · rw [hfailed] at hrun
    exact .inr ⟨hnot, c, hrun.trans (settle_breakdown c _ .badMarkup h₁)⟩

/-- A run that does not get a change into the file fails, and leaves every file with the name of the user's. -/
theorem run_of_not_savable {call : Call} (hread : Call.read items = .ok call)
    (hrequest : call.request = .ok (.changeConfig key value)) (hnot : ∀ config k, ¬ Savable h key value config k) :
    (run items h).1 ≠ .ok 0 ∧
      ∀ place, place.getLast? = some "config.json" → (run items h).2.files.read? place = h.files.read? place := by
  rw [run_apply hread hrequest]
  rcases hopened : openConsole call.options h with ⟨outcome, h₁⟩
  have hfiles₁ (place : Place) : h₁.files.read? place = h.files.read? place := by
    have hspares : Spares place (openConsole call.options) := spares_openConsole call.options
    have hfiles := hspares h
    rwa [hopened] at hfiles
  cases outcome with
  | error e =>
    dsimp only
    exact ⟨report_ne_zero _ e, fun place hplace => (spares_report _ e hplace h₁).trans (hfiles₁ place)⟩
  | ok c =>
    have hmade := (openConsole_eq_ok hopened).1
    obtain ⟨e, h₂, hfailed, hfiles₂⟩ := changeConfig_of_not_savable
      (fun config k hsavable => hnot config k ((savable_opened hmade).1 hsavable)) c
    have hfailed : perform c (.changeConfig key value) h₁ = (.error e, h₂) := hfailed
    dsimp only
    rw [hfailed]
    refine ⟨settle_ne_zero c _ e, fun place hplace => ?_⟩
    exact (spares_settle c _ e hplace h₂).trans ((hfiles₂ place).trans (hfiles₁ place))

/-- A command that changes a setting of the user leaves the user's file as it was, its content or that there is none, and
fails, if the configuration is not there, the key names no setting that accepts the value, or the new configuration
cannot be saved. Otherwise the configuration of before is there afterwards with the named setting changed to what the
text stands for, and no other one; the command ends with the exit code zero exactly if it can tell of that. -/
theorem run_changeConfig (hrequest : requestOf? items = some (.changeConfig key value)) {outcome : Except Failure Nat}
    (hrun : run items h = (outcome, h')) :
    ((∀ config k, ¬ Savable h key value config k) → outcome ≠ .ok 0 ∧
        ∀ place, h.place (userFile h) = .ok place ∨ h'.place (userFile h) = .ok place →
          h'.files.read? place = h.files.read? place) ∧
      ∀ config k, Savable h key value config k →
        (∃ changed, (ConfigStore.load h').1 = .ok changed ∧ changed.value k = k.ofText value ∧
          ∀ k' ≠ k, changed.value k' = config.value k') ∧
        (outcome = .ok 0 ↔ ∃ call, Call.read items = .ok call ∧ CanTell call.options h (changedText k value)) := by
  obtain ⟨call, hread, hrequest⟩ := exists_call hrequest
  refine ⟨fun hnot => ?_, fun config k hsavable => ?_⟩
  · obtain ⟨hcode, hfiles⟩ := run_of_not_savable hread hrequest hnot
    rw [hrun] at hcode hfiles
    refine ⟨hcode, fun place hplace => hfiles place ?_⟩
    rcases hplace with hplace | hplace
    · exact getLast?_place_userFile hplace
    · exact Host.getLast?_place hplace (getLast?_userFile h) (by decide)
  · obtain ⟨h₀, hload⟩ := Action.exists_of_fst hsavable.loads
    obtain ⟨h₁, hsave⟩ := Action.exists_of_fst hsavable.saves
    have hload₁ := load_of_save ((valid_of_load hload).put hsavable.accepts) hsave
    have hcall : (∃ call, Call.read items = .ok call ∧ CanTell call.options h (changedText k value)) ↔
        CanTell call.options h (changedText k value) := by
      simp [hread]
    have hchanged (hload' : ConfigStore.load h' = (.ok (config.put k (k.ofText value)), h')) :
        ∃ changed, (ConfigStore.load h').1 = .ok changed ∧ changed.value k = k.ofText value ∧
          ∀ k' ≠ k, changed.value k' = config.value k' :=
      ⟨_, congrArg Prod.fst hload', config.value_put_self k _, fun k' hk' => config.value_put_of_ne _ hk'⟩
    rw [hcall]
    rcases run_of_savable hread hrequest hsavable hsave with ⟨htells, hdone | ⟨line, hdone⟩⟩ | ⟨hnot, c, hbroken⟩
    · rw [hrun] at hdone
      cases hdone
      exact ⟨hchanged hload₁, iff_of_true rfl htells⟩
    · rw [hrun] at hdone
      cases hdone
      exact ⟨hchanged (load_note hload₁ line), iff_of_true rfl htells⟩
    · rw [hrun] at hbroken
      have hcode := report_ne_zero (h := h₁) c (.breakdown .badMarkup)
      have hload' := load_report c .badMarkup (isFile_of_save hsave) hload₁
      rw [← hbroken] at hcode hload'
      exact ⟨hchanged hload', iff_of_false hcode hnot⟩

/-- A host with a file of the user's in which one setting is set. -/
def slottedHost : Host :=
  configuredHost "\x7b\"compiler\": \x7b\"body_slot\": \"content\"\x7d\x7d" "\x7b\x7d" []

def turnedOn : List String := ["config", "set", "compiler.fail_on_warnings", "YES"]

/-- The name of a format that ends a style where none was begun. -/
def unbegun : List String := ["config", "set", "output.format", "[/x]"]

/-- Both commands change the setting that they name and no other one, but the second one cannot tell of it and fails. -/
theorem run_changeConfig_unbegun :
    requestOf? turnedOn = some (.changeConfig "compiler.fail_on_warnings" "YES") ∧
      requestOf? unbegun = some (.changeConfig "output.format" "[/x]") ∧
      (∃ h' changed, run turnedOn slottedHost = (.ok 0, h') ∧ (ConfigStore.load h').1 = .ok changed ∧
        changed.value .failOnWarnings = true ∧ changed.value .bodySlot = "content") ∧
      ∃ h' changed, run unbegun slottedHost = (.ok 1, h') ∧ (ConfigStore.load h').1 = .ok changed ∧
        changed.value .format = "[/x]" ∧ changed.value .bodySlot = "content" := by
  have hrequest : requestOf? turnedOn = some (.changeConfig "compiler.fail_on_warnings" "YES") := by decide +kernel
  have hrequest' : requestOf? unbegun = some (.changeConfig "output.format" "[/x]") := by decide +kernel
  have hcode : (run turnedOn slottedHost).1 = .ok 0 := by decide +kernel
  have hcode' : (run unbegun slottedHost).1 = .ok 1 := by decide +kernel
  have hload : (ConfigStore.load slottedHost).1 = .ok ⟨⟨"content", true, false⟩, ⟨"auto"⟩⟩ := by decide +kernel
  have hsave : (ConfigStore.save ⟨⟨"content", true, true⟩, ⟨"auto"⟩⟩ slottedHost).1 = .ok ⟨⟩ := by decide +kernel
  have hsave' : (ConfigStore.save ⟨⟨"content", true, false⟩, ⟨"[/x]"⟩⟩ slottedHost).1 = .ok ⟨⟩ := by decide +kernel
  have hword : Setting.failOnWarnings.ofText "YES" = true := by decide +kernel
  obtain ⟨h', hrun⟩ := Action.exists_of_fst hcode
  obtain ⟨h'', hrun'⟩ := Action.exists_of_fst hcode'
  obtain ⟨⟨changed, hchanged, hvalue, hother⟩, -⟩ := (run_changeConfig hrequest hrun).2 _ .failOnWarnings
    ⟨hload, by decide +kernel, trivial, by rw [hword]; exact hsave⟩
  obtain ⟨⟨changed', hchanged', hvalue', hother'⟩, -⟩ := (run_changeConfig hrequest' hrun').2 _ .format
    ⟨hload, by decide +kernel, trivial, hsave'⟩
  refine ⟨hrequest, hrequest', ⟨h', changed, hrun, hchanged, hvalue.trans hword, hother .bodySlot (by decide)⟩, ?_⟩
  exact ⟨h'', changed', hrun', hchanged', hvalue', hother' .bodySlot (by decide)⟩

/-! ## A truth value by a command and by a variable -/

/-- The words that turn a setting off in the environment. -/
def offWords : List String := ["0", "false", "no", "off"]

/-- Whether a warning fails a check, in the configuration in force. -/
def failsOnWarnings (h : Host) : Except Failure Bool :=
  (loadResolved .none h).1.map (·.value .failOnWarnings)

/-- Nothing but the user's file sets a setting: no variable does, and the project's file, which has another name than
the user's, is not there in its directory. -/
structure Alone (h : Host) : Prop where
  bodySlot : h.filled? "SPECBIND_BODY_SLOT" = none
  failOnWarnings : h.filled? "SPECBIND_FAIL_ON_WARNINGS" = none
  project : ∃ place, h.place (projectFile h) = .ok place ∧ h.files.isFile place = false ∧
    place.getLast? ≠ some "config.json"

theorem variableBool_of_filled (hvalue : h.filled? key = some value) :
    variableBool h key =
      if Config.onWords.contains (Text.lower (Text.trim value)) then .ok (some true)
      else if offWords.contains (Text.lower (Text.trim value)) then .ok (some false)
      else .error (.notBoolean key value) := by
  have hwords (w : String) : ["1", "true", "yes", "on"].contains w = Config.onWords.contains w := by
    rw [Bool.eq_iff_iff]
    simp only [Config.onWords, List.contains_iff_mem, List.mem_cons, List.not_mem_nil, or_false]
    exact or_left_comm
  rw [variableBool, hvalue]
  simp only [hwords]
  rfl

theorem contains_onWords_of_off {word : String} (hoff : offWords.contains word) :
    Config.onWords.contains word = false := by
  simp only [offWords, List.contains_iff_mem, List.mem_cons, List.not_mem_nil, or_false] at hoff
  rcases hoff with rfl | rfl | rfl | rfl <;> decide

/-- A word that turns a setting on has no blanks around it. -/
theorem trim_of_on (hon : Config.onWords.contains (Text.lower value)) : Text.trim value = value := by
  apply Text.trim_of_trimmed_lower
  have hwords : ∀ word ∈ Config.onWords, Text.Trimmed Text.isBlank word.toList := by
    unfold Text.Trimmed
    decide +kernel
  exact hwords _ (List.contains_iff_mem.1 hon)

namespace Alone

/-- Directories that are made set nothing. -/
theorem makeDirectory {path : String} (halone : Alone h) (hmade : h.makeDirectory path = .ok h') : Alone h' := by
  obtain ⟨t, way, rfl, -, hgrows, -⟩ := Host.makeDirectory_eq_ok hmade
  obtain ⟨place, hplace, hfile, hname⟩ := halone.project
  obtain ⟨way, hway, hfollow⟩ := bind_eq_ok.1 hplace
  refine ⟨halone.bodySlot, halone.failOnWarnings, place, ?_, (hgrows.isFile_eq place).trans hfile, hname⟩
  exact bind_eq_ok.2 ⟨way, hway, hgrows.follow_eq hfollow⟩

/-- A configuration that is saved gets into the user's file only. -/
theorem save {done : PUnit} (halone : Alone h) (hsaved : ConfigStore.save config h = (.ok done, h')) : Alone h' := by
  obtain ⟨t, written, content, rfl, hgrows, hdirectory, hwritten⟩ := files_of_save hsaved
  obtain ⟨place, hplace, hfile, hname⟩ := halone.project
  obtain ⟨way, hway, hfollow⟩ := bind_eq_ok.1 hplace
  have hne : place ≠ written := by
    rintro rfl
    exact hname hwritten
  refine ⟨halone.bodySlot, halone.failOnWarnings, place, ?_, ?_, hname⟩
  · exact bind_eq_ok.2 ⟨way, hway, FileTree.follow_put (hgrows.follow_eq hfollow) hdirectory⟩
  · rw [FileTree.isFile, FileTree.read?_put_of_ne hne]
    exact (hgrows.isFile_eq place).trans hfile

theorem note (halone : Alone h) (line : String) : Alone (h.note line) :=
  ⟨halone.bodySlot, halone.failOnWarnings, halone.project⟩

theorem layer?_eq (halone : Alone h) : layer? h (projectFile h) = some (.mapping []) := by
  obtain ⟨place, hplace, hfile, -⟩ := halone.project
  exact layer?_of_absent hplace hfile

end Alone

/-- Where nothing else sets it, the setting is what the user's file says. -/
theorem failsOnWarnings_of_load (halone : Alone h) (hload : ConfigStore.load h = (.ok config, h₁)) :
    failsOnWarnings h = .ok (config.value .failOnWarnings) := by
  obtain ⟨hmade, huser⟩ := load_eq_ok.1 hload
  have halone₁ : Alone h₁ := halone.makeDirectory hmade
  have henv : environment h₁ = .ok .none := by
    rw [environment, variableBool, halone₁.bodySlot, halone₁.failOnWarnings]
    rfl
  obtain ⟨c, hc, hvalue⟩ := exists_resolve_of_user huser halone₁.layer?_eq henv (by rintro ⟨⟩ a ⟨⟩)
  rw [failsOnWarnings, loadResolved_apply hmade, hc]
  exact congrArg Except.ok (hvalue .failOnWarnings)

theorem configDirectory_setVariable (value : Option String) :
    configDirectory (h.setVariable "SPECBIND_FAIL_ON_WARNINGS" value) = configDirectory h := by
  have hhome : home (h.setVariable "SPECBIND_FAIL_ON_WARNINGS" value) = home h := by
    rw [home, home, Host.filled?_setVariable_of_ne (by decide)]
  have hnamed (default : String) :
      namedDirectory (h.setVariable "SPECBIND_FAIL_ON_WARNINGS" value) "XDG_CONFIG_HOME" default =
        namedDirectory h "XDG_CONFIG_HOME" default := by
    rw [namedDirectory, namedDirectory, Host.filled?_setVariable_of_ne (by decide), hhome]
  rw [configDirectory, configDirectory, hhome, hnamed]
  rfl

/-- Where the user's file and a variable set the setting the variable holds, or it is refused. -/
theorem failsOnWarnings_setVariable (halone : Alone h) (hload : ConfigStore.load h = (.ok config, h₁))
    (hvalue : value ≠ "") :
    failsOnWarnings (h.setVariable "SPECBIND_FAIL_ON_WARNINGS" (some value)) =
      if Config.onWords.contains (Text.lower (Text.trim value)) then .ok true
      else if offWords.contains (Text.lower (Text.trim value)) then .ok false
      else .error (.config (.notBoolean "SPECBIND_FAIL_ON_WARNINGS" value)) := by
  obtain ⟨hmade, huser⟩ := load_eq_ok.1 hload
  have halone₁ : Alone h₁ := halone.makeDirectory hmade
  let varied (h : Host) : Host := h.setVariable "SPECBIND_FAIL_ON_WARNINGS" (some value)
  have hmade' : (varied h).makeDirectory (configDirectory (varied h)) = .ok (varied h₁) := by
    rw [configDirectory_setVariable]
    exact Host.makeDirectory_setVariable hmade _ _
  have huser' : user (varied h₁) = .ok config := by
    refine user_of_same huser rfl rfl ?_
    rw [userFile, userFile, configDirectory_setVariable]
  have hproject' : layer? (varied h₁) (projectFile (varied h₁)) = some (.mapping []) := by
    have hpath : projectFile (varied h₁) = projectFile h₁ := by
      rw [projectFile, projectFile, Host.filled?_setVariable_of_ne (by decide)]
      rfl
    rw [hpath]
    exact (layer?_congr rfl rfl _).trans halone₁.layer?_eq
  have hslot : (varied h₁).filled? "SPECBIND_BODY_SLOT" = none := by
    rw [Host.filled?_setVariable_of_ne (by decide), halone₁.bodySlot]
  have henv : environment (varied h₁) =
      (variableBool (varied h₁) "SPECBIND_FAIL_ON_WARNINGS").map (⟨none, ·, none⟩) := by
    rw [environment, hslot]
    cases variableBool (varied h₁) "SPECBIND_FAIL_ON_WARNINGS" <;> rfl
  rw [variableBool_of_filled (Host.filled?_setVariable_self hvalue)] at henv
  rw [failsOnWarnings, loadResolved_apply hmade']
  have hswitched (b : Bool) (hb : environment (varied h₁) = .ok ⟨none, some b, none⟩) :
      (resolve (varied h₁) .none).map (·.value .failOnWarnings) = .ok b := by
    obtain ⟨c, hc, hsettings⟩ := exists_resolve_of_user huser' hproject' hb (by rintro ⟨⟩ a ⟨⟩; trivial)
    rw [hc]
    exact congrArg Except.ok (hsettings .failOnWarnings)
  split_ifs at henv ⊢
  · exact hswitched true henv
  · exact hswitched false henv
  · rw [resolve_of_environment_error huser' hproject' henv]
    rfl

/-- A text is taken for the same truth value with and without the blanks around it if it turns the setting on, or turns
it off once they are gone. -/
theorem ok_onWords_eq_iff (value : String) (e : Failure) :
    Except.ok (Config.onWords.contains (Text.lower value)) =
        (if Config.onWords.contains (Text.lower (Text.trim value)) then .ok true
        else if offWords.contains (Text.lower (Text.trim value)) then .ok false
        else .error e) ↔
      Config.onWords.contains (Text.lower value) ∨ offWords.contains (Text.lower (Text.trim value)) := by
  constructor
  · intro hagree
    split_ifs at hagree with hon hoff
    · exact .inl (Except.ok.inj hagree)
    · exact .inr hoff
  · rintro (hon | hoff)
    · rw [trim_of_on hon, if_pos hon, hon]
    · -- such a text turns nothing on, with or without the blanks
      have hnot : Config.onWords.contains (Text.lower (Text.trim value)) = false := contains_onWords_of_off hoff
      have hnot' : Config.onWords.contains (Text.lower value) = false := by
        by_contra hon
        rw [Bool.not_eq_false] at hon
        rw [trim_of_on hon, hon] at hnot
        cases hnot
      rw [hnot, hnot', if_neg Bool.false_ne_true, if_pos hoff]

/-- A command turns the setting on for the words that say so, and off for every other text; it refuses none. A variable
does the same for a text that it knows, with blanks around it or none, and refuses every other one. So both agree on
the words that turn the setting on and, with blanks around them too, on those that turn it off, and on no other text. -/
theorem run_failOnWarnings
    (hrequest : requestOf? items = some (.changeConfig "compiler.fail_on_warnings" value)) (hvalue : value ≠ "")
    (halone : Alone h) (hload : (ConfigStore.load h).1 = .ok config)
    (hsave : (ConfigStore.save (config.put .failOnWarnings (Config.onWords.contains (Text.lower value))) h).1 =
      .ok ⟨⟩) :
    (failsOnWarnings (h.setVariable "SPECBIND_FAIL_ON_WARNINGS" (some value)) =
      if Config.onWords.contains (Text.lower (Text.trim value)) then .ok true
      else if offWords.contains (Text.lower (Text.trim value)) then .ok false
      else .error (.config (.notBoolean "SPECBIND_FAIL_ON_WARNINGS" value))) ∧
    ∃ h', run items h = (.ok 0, h') ∧
      failsOnWarnings h' = .ok (Config.onWords.contains (Text.lower value)) ∧
      (failsOnWarnings h' = failsOnWarnings (h.setVariable "SPECBIND_FAIL_ON_WARNINGS" (some value)) ↔
        Config.onWords.contains (Text.lower value) ∨ offWords.contains (Text.lower (Text.trim value))) := by
  have hkey : "compiler.fail_on_warnings" = Setting.failOnWarnings.label := by decide +kernel
  obtain ⟨h₁, hload⟩ := Action.exists_of_fst hload
  obtain ⟨h₂, hsave⟩ := Action.exists_of_fst hsave
  have hvariable := failsOnWarnings_setVariable halone hload hvalue
  -- the message holds no brackets, so that it can be told
  have hsavable : Savable h "compiler.fail_on_warnings" value config .failOnWarnings :=
    ⟨congrArg Prod.fst hload, hkey, trivial, congrArg Prod.fst hsave⟩
  obtain ⟨call, hread, hcall⟩ := exists_call hrequest
  have htells : CanTell call.options h (changedText .failOnWarnings value) := by
    refine .inr (.inr (.inr (Console.isSome_message?_around _ _ ?_)))
    rw [changedText, Setting.shown]
    split <;> decide +kernel
  have hnoted : ∃ h', run items h = (.ok 0, h') ∧ (h' = h₂ ∨ ∃ line, h' = h₂.note line) := by
    rcases run_of_savable hread hcall hsavable hsave with ⟨-, hdone | ⟨line, hdone⟩⟩ | ⟨hnot, -⟩
    · exact ⟨h₂, hdone, .inl rfl⟩
    · exact ⟨h₂.note line, hdone, .inr ⟨line, rfl⟩⟩
    · exact absurd htells hnot
  obtain ⟨h', hrun, hnoted⟩ := hnoted
  -- nothing but the file says what holds afterwards
  have hload₂ := load_of_save ((valid_of_load hload).put hsavable.accepts) hsave
  have hcommand : failsOnWarnings h' = .ok (Config.onWords.contains (Text.lower value)) := by
    rcases hnoted with rfl | ⟨line, rfl⟩
    · rw [failsOnWarnings_of_load (halone.save hsave) hload₂, Config.value_put_self]
      rfl
    · rw [failsOnWarnings_of_load ((halone.save hsave).note line) (load_note hload₂ line), Config.value_put_self]
      rfl
  refine ⟨hvariable, h', hrun, hcommand, ?_⟩
  rw [hcommand, hvariable]
  exact ok_onWords_eq_iff value _

/-- A host with an empty configuration of the user's, and no file of the project's in the current directory. -/
def aloneHost : Host :=
  { configuredHost "\x7b\x7d" "\x7b\x7d" [] with directory := "/home/u" }

def leftOpen : List String := ["config", "set", "compiler.fail_on_warnings", "maybe"]

theorem alone_aloneHost : Alone aloneHost := by
  refine ⟨by decide +kernel, by decide +kernel, ["home", "u", "specbind.json"], ?_, ?_, by decide⟩
  · decide +kernel
  · decide +kernel

theorem run_failOnWarnings_leftOpen :
    requestOf? leftOpen = some (.changeConfig "compiler.fail_on_warnings" "maybe") ∧ Alone aloneHost ∧
      (∃ h', run leftOpen aloneHost = (.ok 0, h') ∧ failsOnWarnings h' = .ok false) ∧
      failsOnWarnings (aloneHost.setVariable "SPECBIND_FAIL_ON_WARNINGS" (some "maybe")) =
        .error (.config (.notBoolean "SPECBIND_FAIL_ON_WARNINGS" "maybe")) := by
  have hrequest : requestOf? leftOpen = some (.changeConfig "compiler.fail_on_warnings" "maybe") := by decide +kernel
  have hload : (ConfigStore.load aloneHost).1 = .ok .default := by decide +kernel
  have hsave : (ConfigStore.save (Config.default.put .failOnWarnings (Config.onWords.contains (Text.lower "maybe")))
      aloneHost).1 = .ok ⟨⟩ := by decide +kernel
  have hwords : Config.onWords.contains (Text.lower "maybe") = false ∧
      Config.onWords.contains (Text.lower (Text.trim "maybe")) = false ∧
        offWords.contains (Text.lower (Text.trim "maybe")) = false := by decide +kernel
  obtain ⟨hvariable, h', hrun, hcommand, -⟩ := run_failOnWarnings hrequest (by decide) alone_aloneHost hload hsave
  refine ⟨hrequest, alone_aloneHost, ⟨h', hrun, ?_⟩, ?_⟩
  · rw [hcommand, hwords.1]
  · rw [hvariable, hwords.2.1, hwords.2.2, if_neg Bool.false_ne_true, if_neg Bool.false_ne_true]

end Command

end RouteBinding
