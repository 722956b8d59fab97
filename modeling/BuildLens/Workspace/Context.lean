import BuildLens.Folder.Basic
import BuildLens.Process.Runner

/-!
# What all folders share

Main definitions:

- `Context`: the settings in force, the way commands are run, and the messages shown.
- `Context.updateSettings`: new settings.
-/

namespace BuildLens

/-- What all folders share. Commands are run by `runner`, unless others decide on it. -/
structure Context where
  surroundings : Surroundings := {}
  classifier : Classifier := .byExtension
  onWindows : Bool := false
  settings : Settings := {}
  runner : Option Runner := none
  messages : Messages := {}

namespace Context

/-- The way commands are run under the given settings. -/
def runnerFor (c : Context) (settings : Settings) : Runner :=
  .choose c.onWindows (settings.mozillaBuildPath? c.surroundings.platform)

/-- The context with a way of running commands of its own. -/
def withRunner (c : Context) : Context := { c with runner := some (c.runnerFor c.settings) }

/-- The settings that hold for a folder. -/
def folderSettings (c : Context) (root : FilePath) : FolderSettings :=
  c.settings.forFolder c.surroundings.platform root

/-- Whether MozillaBuild is elsewhere under the given settings. -/
def movesMozillaBuild (c : Context) (settings : Settings) : Bool :=
  c.settings.mozillaBuild != settings.mozillaBuild

/-- Puts settings in force. The way of running commands is chosen anew if MozillaBuild is now
elsewhere. -/
def updateSettings (c : Context) (settings : Settings) : Context :=
  { c with
    settings
    runner := if c.movesMozillaBuild settings then c.runner.map fun _ => c.runnerFor settings
      else c.runner }

/-- Shows a message, unless the user knows of the problem. -/
def tell (c : Context) (key : MessageKey) (m : Message) : Context :=
  { c with messages := c.messages.tell key m }

end Context

end BuildLens
