import RouteBinding.Config.Store
import RouteBinding.Proofs.Action
import RouteBinding.Proofs.Config.Edit
import RouteBinding.Proofs.Document.Content
import RouteBinding.Proofs.Host.Basic
import RouteBinding.Proofs.Json.RoundTrip

/-!
# The configuration in force on a host

The files of a host and the variables of its environment as layers. When they are refused (`loadResolved_iff`), and
what each setting is where every layer is valid by itself (`loadResolved_value`). A configuration that has been saved
is loaded again (`load_of_save`).
-/

namespace RouteBinding

/-- A setting has the upper value, or else the lower one. -/
theorem Settings.value?_laidOver (upper lower : Settings) (k : Setting) :
    (upper.laidOver lower).value? k = (upper.value? k).or (lower.value? k) := by
  cases k <;> rfl

/-- Valid settings over valid ones are valid. -/
theorem Settings.Valid.laidOver {upper lower : Settings} (hupper : upper.Valid) (hlower : lower.Valid) :
    (upper.laidOver lower).Valid := by
  intro k a ha
  rw [value?_laidOver, Option.mem_def, Option.or_eq_some_iff] at ha
  obtain ha | ⟨-, ha⟩ := ha
  · exact hupper k a ha
  · exact hlower k a ha

/-- The data of a configuration that is valid is a mapping. -/
theorem Config.exists_mapping_of_ofTree {t : Tree} {c : Config} (h : Config.ofTree t = .ok c) :
    ∃ entries, t = .mapping entries := by
  cases t with
  | mapping entries => exact ⟨entries, rfl⟩
  | _ => cases h

namespace ConfigStore

variable {h h' : Host} {path : String} {command env : Settings} {c : Config}

/-! ## Files as layers -/

/-- The data of a file as a layer: an empty mapping where there is no file, and nothing where the file is not of
JSON. -/
def layer? (h : Host) (path : String) : Option Tree :=
  match h.isFile path with
  | .ok true => readJson? h path
  | .ok false => some (.mapping [])
  | .error _ => none

/-- A layer has distinct keys. -/
theorem distinctKeys_of_layer? {t : Tree} (ht : layer? h path = some t) : t.DistinctKeys := by
  unfold layer? at ht
  split at ht
  · obtain ⟨content, -, hread⟩ := Option.bind_eq_some_iff.1 ht
    exact Json.distinctKeys_of_read (toOption_eq_some.1 hread)
  · cases ht
    exact .mapping .nil fun _ ht => (List.not_mem_nil ht).elim
  · cases ht

/-- Only the files and the current directory have a part in a layer. -/
theorem layer?_congr (hfiles : h'.files = h.files) (hdirectory : h'.directory = h.directory) (path : String) :
    layer? h' path = layer? h path := by
  rw [layer?, layer?, readJson?, readJson?, Host.isFile_congr hfiles hdirectory, Host.readText?_congr hfiles hdirectory]

/-- Where no file is, the layer is empty. -/
theorem layer?_of_absent {place : Place} (hplace : h.place path = .ok place) (hfile : h.files.isFile place = false) :
    layer? h path = some (.mapping []) := by
  rw [layer?, Host.isFile, hplace]
  dsimp only
  rw [hfile]

/-- Nothing is set by an empty mapping. -/
theorem ofTree_nil : Config.ofTree (.mapping []) = .ok .default := rfl

/-- What the user's file comes to: the host cannot look for it, it is not there, it is not of JSON, or its data is
read. -/
theorem user_eq (h : Host) :
    user h = match h.isFile (userFile h) with
      | .error b => .error (.breakdown b)
      | .ok false => .ok .default
      | .ok true =>
        match readJson? h (userFile h) with
        | none => .error (.config (.userFile (userFile h) none))
        | some t => (Config.ofTree t).mapError fun ps => .config (.userFile (userFile h) (some ps)) := by
  simp only [user]
  rcases h.isFile (userFile h) with b | _ | _
  · rfl
  · rfl
  · cases readJson? h (userFile h) <;> rfl

theorem project_eq (h : Host) :
    project h = match h.isFile (projectFile h) with
      | .error b => .error (.breakdown b)
      | .ok false => .ok none
      | .ok true =>
        match readJson? h (projectFile h) with
        | none => .error (.config (.projectFile (projectFile h)))
        | some (.mapping entries) => .ok (some entries)
        | some _ => .error (.config (.projectNotObject (projectFile h))) := by
  simp only [project]
  rcases h.isFile (projectFile h) with b | _ | _
  · rfl
  · rfl
  · rcases readJson? h (projectFile h) with _ | _ | _ | entries <;> rfl

/-- The user's configuration is the one in the user's file. -/
theorem user_eq_ok : user h = .ok c ↔ ∃ t, layer? h (userFile h) = some t ∧ Config.ofTree t = .ok c := by
  rw [user_eq, layer?]
  rcases h.isFile (userFile h) with b | _ | _
  · simp
  · simp [ofTree_nil]
  · cases readJson? h (userFile h) <;> simp [mapError_eq_ok]

/-- The user's settings are the same while their file is. -/
theorem user_of_same (huser : user h = .ok c) (hfiles : h'.files = h.files) (hdirectory : h'.directory = h.directory)
    (hpath : userFile h' = userFile h) : user h' = .ok c := by
  obtain ⟨t, hfile, ht⟩ := user_eq_ok.1 huser
  exact user_eq_ok.2 ⟨t, by rw [hpath, layer?_congr hfiles hdirectory, hfile], ht⟩

/-- The entries of the project are those of its file. -/
theorem exists_project_iff {entries : List (Scalar × Tree)} :
    (∃ found, project h = .ok found ∧ found.getD [] = entries) ↔
      layer? h (projectFile h) = some (.mapping entries) := by
  rw [project_eq, layer?]
  rcases h.isFile (projectFile h) with b | _ | _
  · simp
  · simp
  · rcases readJson? h (projectFile h) with _ | _ | _ | found <;> simp

/-- Why a file gives no layer: something is wrong with the configuration, or the host cannot look for the file. -/
def Blamed (h : Host) (path : String) (e : Failure) : Prop :=
  (∃ e', e = .config e') ∨ ∃ b, h.isFile path = .error b ∧ e = .breakdown b

/-- What is wrong with the user's settings names their file. -/
theorem blamed_of_user {e : Failure} (he : user h = .error e) : Blamed h (userFile h) e := by
  rw [user_eq] at he
  split at he
  · rename_i b hfile
    cases he
    exact .inr ⟨b, hfile, rfl⟩
  · cases he
  · left
    split at he
    · cases he
      exact ⟨_, rfl⟩
    · obtain ⟨ps, -, rfl⟩ := mapError_eq_error.1 he
      exact ⟨_, rfl⟩

/-- What is wrong with the settings of the project names their file. -/
theorem blamed_of_project {e : Failure} (he : project h = .error e) : Blamed h (projectFile h) e := by
  rw [project_eq] at he
  split at he
  · rename_i b hfile
    cases he
    exact .inr ⟨b, hfile, rfl⟩
  · cases he
  · left
    split at he <;> cases he <;> exact ⟨_, rfl⟩

/-! ## What is refused -/

/-- A configuration is in force exactly if every layer is there and they can be resolved. -/
theorem resolve_eq_ok :
    resolve h command = .ok c ↔
      ∃ u found env, user h = .ok u ∧ project h = .ok found ∧ environment h = .ok env ∧
        Layers.resolve ⟨u, found, env, command⟩ = .ok c := by
  simp only [resolve, bind_eq_ok, mapError_eq_ok]
  constructor
  · rintro ⟨u, hu, found, hfound, env, henv, hc⟩
    exact ⟨u, found, env, hu, hfound, henv, hc⟩
  · rintro ⟨u, found, env, hu, hfound, henv, hc⟩
    exact ⟨u, hu, found, hfound, env, henv, hc⟩

/-- Why the layers of a host are refused under the settings of a command. -/
inductive Refused (h : Host) (command : Settings) : Prop
  | user (hfile : ∀ t c, layer? h (userFile h) = some t → Config.ofTree t ≠ .ok c)
  | project (hfile : ∀ entries, layer? h (projectFile h) ≠ some (.mapping entries))
  | environment {e : ConfigError} (henv : environment h = .error e)
  | slot {env : Settings} (henv : environment h = .ok env) (hslot : ¬ (command.laidOver env).Valid)
  | entry {env : Settings} {entries : List (Scalar × Tree)} {p : ConfigProblem} (henv : environment h = .ok env)
    (hfile : layer? h (projectFile h) = some (.mapping entries))
    (hp : p ∈ ConfigProblem.listOf (Config.ofTree (.mapping entries)))
    (hcovers : ¬ (command.laidOver env).Covers p)

/-- A configuration is in force exactly if nothing is refused. -/
theorem exists_resolve_iff : (∃ c, resolve h command = .ok c) ↔ ¬ Refused h command := by
  constructor
  · rintro ⟨c, hc⟩ hrefused
    obtain ⟨u, found, env, hu, hfound, henv, hc⟩ := resolve_eq_ok.1 hc
    obtain ⟨t, hfile, ht⟩ := user_eq_ok.1 hu
    have hproject := exists_project_iff.1 ⟨found, hfound, rfl⟩
    have hlayers := (Layers.exists_resolve_iff (l := ⟨u, found, env, command⟩) (Config.accepts_of_ofTree ht)
      (distinctKeys_of_layer? hproject)).1 ⟨c, hc⟩
    cases hrefused with
    | user hnone => exact hnone t u hfile ht
    | project hnone => exact hnone _ hproject
    | environment herror =>
      rw [henv] at herror
      cases herror
    | slot henv' hslot =>
      rw [henv, Except.ok.injEq] at henv'
      exact hslot (henv' ▸ hlayers.1)
    | entry henv' hfile hp hcovers =>
      rw [henv, Except.ok.injEq] at henv'
      rw [hproject, Option.some.injEq, Tree.mapping.injEq] at hfile
      exact hcovers (henv' ▸ hlayers.2 _ (hfile ▸ hp))
  · -- each layer is there, because it would be refused otherwise
    intro hrefused
    obtain ⟨t, u, hfile, ht⟩ : ∃ t u, layer? h (userFile h) = some t ∧ Config.ofTree t = .ok u := by
      by_contra hnone
      exact hrefused (.user fun t c hfile ht => hnone ⟨t, c, hfile, ht⟩)
    obtain ⟨entries, hproject⟩ : ∃ entries, layer? h (projectFile h) = some (.mapping entries) := by
      by_contra hnone
      exact hrefused (.project fun entries hfile => hnone ⟨entries, hfile⟩)
    obtain ⟨found, hfound, rfl⟩ := exists_project_iff.2 hproject
    cases henv : environment h with
    | error e => exact absurd (.environment henv) hrefused
    | ok env =>
      obtain ⟨c, hc⟩ := (Layers.exists_resolve_iff (l := ⟨u, found, env, command⟩) (Config.accepts_of_ofTree ht)
        (distinctKeys_of_layer? hproject)).2
          ⟨not_not.1 fun hslot => hrefused (.slot henv hslot),
            fun p hp => not_not.1 fun hcovers => hrefused (.entry henv hproject hp hcovers)⟩
      exact ⟨c, resolve_eq_ok.2 ⟨u, found, env, user_eq_ok.2 ⟨t, hfile, ht⟩, hfound, henv, hc⟩⟩

/-- What is refused is blamed on the configuration. -/
theorem blamed_of_resolve {e : Failure} (he : resolve h command = .error e) :
    ∃ path ∈ [userFile h, projectFile h], Blamed h path e := by
  simp only [resolve, bind_eq_error, mapError_eq_error] at he
  obtain huser | ⟨u, -, hproject | ⟨found, -, ⟨e', -, rfl⟩ | ⟨env, -, ps, -, rfl⟩⟩⟩ := he
  · exact ⟨_, List.mem_cons_self, blamed_of_user huser⟩
  · exact ⟨_, List.mem_cons_of_mem _ List.mem_cons_self, blamed_of_project hproject⟩
  · exact ⟨_, List.mem_cons_self, .inl ⟨e', rfl⟩⟩
  · exact ⟨_, List.mem_cons_self, .inl ⟨_, rfl⟩⟩

/-- A directory that can be made is made. -/
theorem ensured_of_ok {directory : Host → String} (hmade : h.makeDirectory (directory h) = .ok h') :
    ensured directory h = (.ok (directory h), h') := by
  rw [ensured, Action.bind_of_ok (Action.get_apply h), Action.bind_of_ok (Action.change_of_ok hmade),
    Action.pure_apply]

/-- The layers are looked at once the directory of the user's configuration is there. -/
theorem loadResolved_apply (hmade : h.makeDirectory (configDirectory h) = .ok h') (command : Settings) :
    loadResolved command h = (resolve h' command, h') := by
  rw [loadResolved, Action.bind_of_ok (ensured_of_ok hmade), Action.bind_of_ok (Action.get_apply h'),
    Action.ofExcept_apply]
  cases resolve h' command <;> rfl

/-- A variable is refused once the files have been read. -/
theorem resolve_of_environment_error {u : Config} {entries : List (Scalar × Tree)} {e : ConfigError}
    (huser : user h = .ok u) (hproject : layer? h (projectFile h) = some (.mapping entries))
    (henv : environment h = .error e) : resolve h command = .error (.config e) := by
  obtain ⟨found, hfound, -⟩ := exists_project_iff.2 hproject
  rw [resolve, huser, hfound, henv]
  rfl

/-- A configuration is in force exactly if no layer is refused. Of what is wrong with the project's file that is only
what stands where no higher layer has a value. -/
theorem loadResolved_iff (hmade : h.makeDirectory (configDirectory h) = .ok h') (command : Settings) :
    ((∃ c, (loadResolved command h).1 = .ok c) ↔ ¬ Refused h' command) ∧
      ∀ e, (loadResolved command h).1 = .error e →
        ∃ path ∈ [userFile h', projectFile h'], Blamed h' path e := by
  rw [loadResolved_apply hmade]
  exact ⟨exists_resolve_iff, fun e => blamed_of_resolve⟩

/-- A host with two files of configuration, which are the user's and the project's. -/
def configuredHost (userText projectText : String) (environment : List (String × String)) : Host where
  files := ⟨[(["home", "u", ".config", "specbind", "config.json"], .file userText.toUTF8),
    (["work", "specbind.json"], .file projectText.toUTF8)]⟩
  environment := ("HOME", "/home/u") :: environment
  directory := "/work"
  platform := "Linux"
  input := ""
  fetch := fun _ => .failure ""
  hasTerminal := false
  time := ""

/-- The directory of the user's configuration is there on such a host. -/
theorem makeDirectory_configuredHost {userText projectText : String} {environment : List (String × String)}
    (hway : (configuredHost userText projectText environment).way
      (configDirectory (configuredHost userText projectText environment)) =
        .ok ["home", "u", ".config", "specbind"]) :
    (configuredHost userText projectText environment).makeDirectory
      (configDirectory (configuredHost userText projectText environment)) =
        .ok (configuredHost userText projectText environment) := by
  refine Host.makeDirectory_eq_self hway ⟨by decide, ?_⟩
  simp [Path.stations, configuredHost, FileTree.isDirectory, FileTree.isFile, FileTree.read?, List.lookup_cons]

/-- A host on which a section of the project's file is no mapping. -/
def numberedHost : Host := configuredHost "\x7b\x7d" "\x7b\"compiler\": 5\x7d" []

/-- A number where a section must be is a problem of its layer, and the settings are read all the same. -/
theorem loadResolved_iff_numberedHost :
    numberedHost.makeDirectory (configDirectory numberedHost) = .ok numberedHost ∧
      (layer? numberedHost (projectFile numberedHost)).map (fun t => ConfigProblem.listOf (Config.ofTree t)) =
        some [⟨[.text "compiler"], .notMapping⟩] ∧
      ¬ Refused numberedHost .none := by
  have hmade : numberedHost.makeDirectory (configDirectory numberedHost) = .ok numberedHost :=
    makeDirectory_configuredHost (by decide +kernel)
  refine ⟨hmade, by decide +kernel, (loadResolved_iff hmade .none).1.1 ⟨.default, ?_⟩⟩
  rw [loadResolved_apply hmade]
  decide +kernel

/-! ## What the settings are -/

section Valid

variable {userTree projectTree : Tree} {u p : Config}

/-- Layers that are valid by themselves resolve, each setting to the value of the first layer that sets it. -/
theorem exists_resolve_of_valid
    (huserFile : layer? h (userFile h) = some userTree) (huser : Config.ofTree userTree = .ok u)
    (hprojectFile : layer? h (projectFile h) = some projectTree) (hproject : Config.ofTree projectTree = .ok p)
    (henv : environment h = .ok env) (hvalid : env.Valid) (hcommand : command.Valid) :
    ∃ c, resolve h command = .ok c ∧
      ∀ k, c.value k =
        (command.value? k <|> env.value? k <|> projectTree.value? k <|> userTree.value? k).getD
          (Config.default.value k) := by
  obtain ⟨entries, rfl⟩ := Config.exists_mapping_of_ofTree hproject
  obtain ⟨found, hfound, rfl⟩ := exists_project_iff.2 hprojectFile
  have hdistinct := distinctKeys_of_layer? hprojectFile
  obtain ⟨c, hc⟩ := (Layers.exists_resolve_iff (l := ⟨u, found, env, command⟩) (Config.accepts_of_ofTree huser)
    hdistinct).2 ⟨hcommand.laidOver hvalid, by simp [hproject, ConfigProblem.listOf]⟩
  refine ⟨c, ?_, fun k => ?_⟩
  · exact resolve_eq_ok.2 ⟨u, found, env, user_eq_ok.2 ⟨_, huserFile, huser⟩, hfound, henv, hc⟩
  rw [Layers.value_of_resolve hdistinct hproject hc, Settings.value?_laidOver, Config.value_of_ofTree huser]
  cases command.value? k <;> cases env.value? k <;> cases (Tree.mapping (found.getD [])).value? k <;> rfl

/-- Where the project sets nothing the environment stands right above the user's file. -/
theorem exists_resolve_of_user (huser : user h = .ok u) (hproject : layer? h (projectFile h) = some (.mapping []))
    (henv : environment h = .ok env) (hvalid : env.Valid) :
    ∃ c, resolve h .none = .ok c ∧ ∀ k, c.value k = (env.value? k).getD (u.value k) := by
  obtain ⟨t, hfile, ht⟩ := user_eq_ok.1 huser
  have hnone (k : Setting) : Settings.none.value? k = none ∧ (Tree.mapping []).value? k = none := by
    cases k <;> exact ⟨rfl, rfl⟩
  have hcommand : Settings.none.Valid := by
    intro k a ha
    rw [(hnone k).1] at ha
    cases ha
  obtain ⟨c, hc, hvalue⟩ := exists_resolve_of_valid hfile ht hproject ofTree_nil henv hvalid hcommand
  refine ⟨c, hc, fun k => ?_⟩
  rw [hvalue, (hnone k).1, (hnone k).2, Config.value_of_ofTree ht]
  cases env.value? k <;> rfl

/-- Where every layer is valid by itself there is a configuration, and each setting has in it the value of the first
layer that sets it: the command, the environment, the project's file and the user's file. No other setting has a part
in that. -/
theorem loadResolved_value (hmade : h.makeDirectory (configDirectory h) = .ok h')
    (huserFile : layer? h' (userFile h') = some userTree) (huser : Config.ofTree userTree = .ok u)
    (hprojectFile : layer? h' (projectFile h') = some projectTree) (hproject : Config.ofTree projectTree = .ok p)
    (henv : environment h' = .ok env) (hvalid : env.Valid) (hcommand : command.Valid) :
    ∃ c, (loadResolved command h).1 = .ok c ∧
      ∀ k, c.value k =
        (command.value? k <|> env.value? k <|> projectTree.value? k <|> userTree.value? k).getD
          (Config.default.value k) := by
  rw [loadResolved_apply hmade]
  exact exists_resolve_of_valid huserFile huser hprojectFile hproject henv hvalid hcommand

end Valid

/-- A host on which every layer sets something. -/
def layeredHost : Host :=
  configuredHost
    "\x7b\"compiler\": \x7b\"warn_unbound_operations\": \"no\", \"body_slot\": \"content\"\x7d\x7d"
    "\x7b\"compiler\": \x7b\"body_slot\": \"payload\", \"fail_on_warnings\": 0\x7d\x7d"
    [("SPECBIND_FAIL_ON_WARNINGS", "yes")]

/-- The override, the environment, the project and the user each give one setting. -/
theorem loadResolved_value_layeredHost :
    ∃ c, (loadResolved ⟨none, none, some "json"⟩ layeredHost).1 = .ok c ∧
      c.value .bodySlot = "payload" ∧ c.value .warnUnbound = false ∧ c.value .failOnWarnings = true ∧
        c.value .format = "json" := by
  have hmade : layeredHost.makeDirectory (configDirectory layeredHost) = .ok layeredHost :=
    makeDirectory_configuredHost (by decide +kernel)
  have huser : (layer? layeredHost (userFile layeredHost)).map Config.ofTree =
      some (.ok ⟨⟨"content", false, false⟩, ⟨"auto"⟩⟩) := by decide +kernel
  have hproject : (layer? layeredHost (projectFile layeredHost)).map Config.ofTree =
      some (.ok ⟨⟨"payload", true, false⟩, ⟨"auto"⟩⟩) := by decide +kernel
  have henv : environment layeredHost = .ok ⟨none, some true, none⟩ := by decide +kernel
  have hcommand : (⟨none, none, some "json"⟩ : Settings).Valid := by
    rintro ⟨⟩ a ⟨⟩
    trivial
  obtain ⟨userTree, huserFile, huser⟩ := Option.map_eq_some_iff.1 huser
  obtain ⟨projectTree, hprojectFile, hproject⟩ := Option.map_eq_some_iff.1 hproject
  obtain ⟨c, hc, hvalue⟩ := loadResolved_value hmade huserFile huser hprojectFile hproject henv
    (by rintro ⟨⟩ a ⟨⟩; trivial) hcommand
  have huserValue (k : Setting) :
      userTree.value? k = (layer? layeredHost (userFile layeredHost)).bind (·.value? k) := by
    rw [huserFile, Option.bind_some]
  have hprojectValue (k : Setting) :
      projectTree.value? k = (layer? layeredHost (projectFile layeredHost)).bind (·.value? k) := by
    rw [hprojectFile, Option.bind_some]
  simp only [huserValue, hprojectValue] at hvalue
  refine ⟨c, hc, (hvalue _).trans ?_, (hvalue _).trans ?_, (hvalue _).trans ?_, (hvalue _).trans ?_⟩ <;>
    decide +kernel

/-! ## Saving -/

variable {h₁ h₂ : Host} {text : String}

/-- The data of a configuration is written without loss. -/
theorem lossless_tree (c : Config) : Json.Lossless c.tree := by
  have hcompiler : Json.Lossless c.compiler.tree := by
    refine .record (by simp) ?_
    simp only [List.forall_mem_cons, List.not_mem_nil, false_implies, implies_true, and_true]
    exact ⟨.text _, .bool _, .bool _⟩
  have houtput : Json.Lossless c.output.tree := by
    refine .record (by simp) ?_
    simp only [List.forall_mem_singleton]
    exact .text _
  refine .record (by simp) ?_
  simp only [List.forall_mem_cons, List.not_mem_nil, false_implies, implies_true, and_true]
  exact ⟨hcompiler, houtput⟩

/-- The file of a configuration holds its data. -/
theorem read_fileText (c : Config) : Json.read (fileText c) = .ok c.tree := by
  have hblank : ∀ c ∈ "\n".toList, Json.isSpace c := List.all_eq_true.1 (by decide)
  obtain ⟨text, htext, hread⟩ := Json.read_write? (lossless_tree c) .prettyAscii "\n" hblank
  rw [fileText, htext]
  exact hread

/-- A directory is ensured if it can be made. -/
theorem ensured_eq_ok {directory : Host → String} :
    ensured directory h = (.ok path, h₁) ↔ h.makeDirectory (directory h) = .ok h₁ ∧ path = directory h := by
  rw [ensured, Action.bind_of_ok (Action.get_apply h), Step.bind_eq_ok]
  constructor
  · rintro ⟨done, h', hmade, hpath⟩
    cases hpath
    exact ⟨Action.change_eq_ok.1 hmade, rfl⟩
  · rintro ⟨hmade, rfl⟩
    exact ⟨⟨⟩, h₁, Action.change_eq_ok.2 hmade, rfl⟩

/-- The user's configuration is loaded from the file once its directory is there. -/
theorem load_eq_ok :
    load h = (.ok c, h₁) ↔ h.makeDirectory (configDirectory h) = .ok h₁ ∧ user h₁ = .ok c := by
  rw [load, Step.bind_eq_ok]
  constructor
  · rintro ⟨path, h', hmade, hload⟩
    rw [Action.bind_of_ok (Action.get_apply h')] at hload
    obtain ⟨huser, rfl⟩ := Action.ofExcept_eq_ok.1 hload
    exact ⟨(ensured_eq_ok.1 hmade).1, huser⟩
  · rintro ⟨hmade, huser⟩
    refine ⟨configDirectory h, h₁, ensured_eq_ok.2 ⟨hmade, rfl⟩, ?_⟩
    rw [Action.bind_of_ok (Action.get_apply h₁)]
    exact Action.ofExcept_eq_ok.2 ⟨huser, rfl⟩

/-- Settings are saved if their directory can be made and their file be written. -/
theorem save_eq_ok {done : PUnit} :
    save c h = (.ok done, h₂) ↔
      ∃ h₁, h.makeDirectory (configDirectory h) = .ok h₁ ∧ h₁.replaceText (userFile h₁) (fileText c) = .ok h₂ := by
  rw [save, Step.bind_eq_ok]
  constructor
  · rintro ⟨path, h', hmade, hsave⟩
    rw [Action.bind_of_ok (Action.get_apply h')] at hsave
    have hwritten := Action.change_eq_ok.1 hsave
    exact ⟨h', (ensured_eq_ok.1 hmade).1, hwritten⟩
  · rintro ⟨h', hmade, hwritten⟩
    refine ⟨configDirectory h, h', ensured_eq_ok.2 ⟨hmade, rfl⟩, ?_⟩
    rw [Action.bind_of_ok (Action.get_apply h')]
    exact Action.change_eq_ok.2 hwritten

/-- A directory that has been made is not made again. -/
theorem makeDirectory_again (hmade : h.makeDirectory (configDirectory h) = .ok h₁) :
    h₁.makeDirectory (configDirectory h₁) = .ok h₁ := by
  obtain ⟨t, way, rfl, hway, -, hclear⟩ := Host.makeDirectory_eq_ok hmade
  exact Host.makeDirectory_eq_self hway hclear

/-- A file that is written leaves the directories that are there. -/
theorem makeDirectory_of_replaceText (hmade : h.makeDirectory (configDirectory h) = .ok h₁)
    (hwritten : h₁.replaceText path text = .ok h₂) : h₂.makeDirectory (configDirectory h₂) = .ok h₂ := by
  obtain ⟨t, way, rfl, hway, -, hclear⟩ := Host.makeDirectory_eq_ok hmade
  obtain ⟨t', way', place, rfl, -, hgrows, -, hdirectory⟩ := Host.replaceText_eq_ok hwritten
  exact Host.makeDirectory_eq_self hway ((hclear.mono hgrows).put hdirectory)

/-- What has been saved is loaded, if it is valid. -/
theorem load_of_save {done : PUnit} (hvalid : c.Valid) (hsaved : save c h = (.ok done, h₂)) :
    load h₂ = (.ok c, h₂) := by
  obtain ⟨h₁, hmade, hwritten⟩ := save_eq_ok.1 hsaved
  obtain ⟨hfile, htext⟩ := Host.readText?_of_replaceText hwritten
  have hpath : userFile h₂ = userFile h₁ := by
    obtain ⟨t, way, place, rfl, -⟩ := Host.replaceText_eq_ok hwritten
    rfl
  have hlayer : layer? h₂ (userFile h₂) = some c.tree := by
    rw [hpath, layer?, hfile]
    show (h₂.readText? (userFile h₁)).bind (fun text => (Json.read text).toOption) = _
    rw [htext, Option.bind_some, read_fileText]
    rfl
  exact load_eq_ok.2 ⟨makeDirectory_of_replaceText hmade hwritten,
    user_eq_ok.2 ⟨c.tree, hlayer, Config.ofTree_tree hvalid⟩⟩

/-- What has been saved stands in the user's file. -/
theorem isFile_of_save {done : PUnit} (hsaved : save c h = (.ok done, h₂)) : h₂.isFile (userFile h₂) = .ok true := by
  obtain ⟨h₁, -, hwritten⟩ := save_eq_ok.1 hsaved
  have hfile := (Host.readText?_of_replaceText hwritten).1
  obtain ⟨t, way, place, rfl, -⟩ := Host.replaceText_eq_ok hwritten
  exact hfile

/-- What is loaded is valid. -/
theorem valid_of_load (hload : load h = (.ok c, h₁)) : c.Valid := by
  obtain ⟨t, -, ht⟩ := user_eq_ok.1 (load_eq_ok.1 hload).2
  exact Config.valid_of_ofTree ht

/-- It is the same to load where the directory has been made. -/
theorem load_again (hmade : h.makeDirectory (configDirectory h) = .ok h₁) : load h₁ = load h := by
  rw [load, Action.bind_of_ok (ensured_of_ok hmade), Action.bind_of_ok (ensured_of_ok (makeDirectory_again hmade))]

/-- It is the same to save where the directory has been made. -/
theorem save_again (hmade : h.makeDirectory (configDirectory h) = .ok h₁) (c : Config) : save c h₁ = save c h := by
  rw [save, Action.bind_of_ok (ensured_of_ok hmade), Action.bind_of_ok (ensured_of_ok (makeDirectory_again hmade))]

/-! ## The place of the user's file -/

/-- The user's file is known by its name. -/
theorem getLast?_userFile (h : Host) : (Path.names (userFile h)).getLast? = some "config.json" := by
  rw [userFile, Path.names_append (by decide)]
  have hname : Path.names "config.json" = ["config.json"] := by decide +kernel
  rw [hname, List.getLast?_concat]

/-- The settings of the user are in a file of one name. -/
theorem getLast?_place_userFile {place : Place} (hplace : h.place (userFile h) = .ok place) :
    place.getLast? = some "config.json" :=
  Host.getLast?_place hplace (getLast?_userFile h) (by decide)

/-- Saving makes directories and writes one file, which has the name of the user's. -/
theorem files_of_save {done : PUnit} (hsaved : save c h = (.ok done, h₂)) :
    ∃ t place content, h₂ = { h with files := t.put place (.file content) } ∧ h.files.Grows t ∧
      t.isDirectory place = false ∧ place.getLast? = some "config.json" := by
  obtain ⟨h₁, hmade, hwritten⟩ := save_eq_ok.1 hsaved
  obtain ⟨t₁, -, rfl, -, hgrows₁, -⟩ := Host.makeDirectory_eq_ok hmade
  obtain ⟨t, way, place, rfl, hway, hgrows, hfollow, hdirectory⟩ := Host.replaceText_eq_ok hwritten
  have hname : way.getLast? = some "config.json" := Host.way_getLast? hway (getLast?_userFile _)
  exact ⟨t, place, _, rfl, hgrows₁.trans hgrows, hdirectory, FileTree.getLast?_of_follow hfollow hname (by decide)⟩

end ConfigStore

end RouteBinding
