import RouteBinding.Config.Store
import RouteBinding.Console

/-!
# Showing and changing the configuration

The commands on the configuration: one shows what is in force and where it comes from, the other changes
one setting of the user.
-/

namespace RouteBinding.Command

/-- Shows the configuration in force. -/
def showConfig (c : Console) : Action Unit := do
  let config ← ConfigStore.loadResolved .none
  let h ← get
  c.info ("User config: " ++ ConfigStore.userFile h)
  c.info ("Project config: " ++ ConfigStore.projectFile h)
  c.showData config.tree

/-- Changes one setting of the user's configuration, which is named by its keys with dots between
them. -/
def changeConfig (c : Console) (key value : String) : Action Unit := do
  let config ← ConfigStore.load
  let (changed, new) ← Action.ofExcept (.setting key) (config.set (Text.split '.' key) value)
  ConfigStore.save changed
  c.success ("Set " ++ key ++ " = " ++ (← Console.displayed new))

end RouteBinding.Command
