import BuildLens.Compiler.SourceConfiguration

/-!
# Registrations with the editor

The editor hands out an interface on which a provider of configurations is registered and through
which it tells of changes. Once a provider is disposed of it tells nothing more.

Main definitions:

- `ChangeNotice`, `ApiEvent`: what an interface is told.
- `Registration`, `Registration.notify`, `Registration.dispose`: a provider on its interface.
- `ProvidedItem`: the configuration of a file as it is provided.
-/

namespace BuildLens

/-- A change that the editor is told of. -/
inductive ChangeNotice where
  | configurationChanged
  | browseConfigurationChanged
deriving DecidableEq, Repr

/-- What the editor's interface is told. -/
inductive ApiEvent where
  | register
  | ready
  | changed (notice : ChangeNotice)
  | dispose
deriving DecidableEq, Repr

/-- The name of the event. -/
def ApiEvent.name : ApiEvent → String
  | .register => "register"
  | .ready => "ready"
  | .changed .configurationChanged => "configuration_changed"
  | .changed .browseConfigurationChanged => "browse_configuration_changed"
  | .dispose => "dispose"

/-- A provider on the interface with which it was registered, and what that was told so far. -/
structure Registration where
  events : List ApiEvent
  disposed : Bool
deriving DecidableEq, Repr

namespace Registration

/-- A provider that was just registered. -/
def fresh : Registration := ⟨[.register, .ready], false⟩

/-- Tells of a change, unless the provider is disposed of. -/
def notify (r : Registration) (notice : ChangeNotice) : Registration :=
  if r.disposed then r else { r with events := r.events ++ [.changed notice] }

/-- Tells that configurations and directories to browse have changed. -/
def notifyChange (r : Registration) : Registration :=
  (r.notify .configurationChanged).notify .browseConfigurationChanged

/-- Disposes of the provider. -/
def dispose (r : Registration) : Registration :=
  if r.disposed then r else { events := r.events ++ [.dispose], disposed := true }

end Registration

/-- The name under which providers are registered. -/
def providerName : String := "Mozilla"

/-- The identifier of the editor's extension. -/
def extensionId : String := "fractalbrew.mozillacpp"

/-- The configuration of a file as it is provided, with the URI by which it was asked for. -/
structure ProvidedItem where
  uri : String
  configuration : SourceConfiguration
deriving DecidableEq, Repr

/-- The item in the form that the editor reads. -/
def ProvidedItem.toJson (i : ProvidedItem) : Json :=
  .object [("uri", .string i.uri), ("configuration", i.configuration.toJson)]

end BuildLens
