import LabelPrinter.Event
import LabelPrinter.Listener.Registry

namespace LabelPrinter

/-- A client event together with the connection that raised it. -/
structure Notice where
  endpoint : String
  event : ClientEvent
  deriving DecidableEq, Repr

/-- Both registries of a connection. -/
structure Listeners where
  endpoint : String
  clients : Registry Notice := {}
  data : Registry DataEvent := {}
  deriving DecidableEq, Repr

/-- One step of the listeners of a connection. -/
inductive ListenersStep where
  | client (s : RegistryStep)
  | data (s : RegistryStep)
  | raise (e : Event)
  deriving DecidableEq, Repr

/-- What one listener was told, as a client listener and as a data listener. -/
structure Told where
  listener : String
  client : List Notice
  data : List DataEvent

namespace Listeners

def addClient (l : Listeners) (listener : String) : Listeners :=
  { l with clients := l.clients.add listener }

def addData (l : Listeners) (listener : String) : Listeners :=
  { l with data := l.data.add listener }

def removeClient (l : Listeners) (listener : String) : Listeners × Bool :=
  ({ l with clients := (l.clients.remove listener).1 }, (l.clients.remove listener).2)

def removeData (l : Listeners) (listener : String) : Listeners × Bool :=
  ({ l with data := (l.data.remove listener).1 }, (l.data.remove listener).2)

def raise (l : Listeners) : Event → Listeners
  | .client e => { l with clients := l.clients.raise ⟨l.endpoint, e⟩ }
  | .data e => { l with data := l.data.raise e }

def raiseAll (l : Listeners) (events : List Event) : Listeners := events.foldl raise l

def act (l : Listeners) : ListenersStep → Listeners
  | .client s => { l with clients := l.clients.act s }
  | .data s => { l with data := l.data.act s }
  | .raise e => l.raise e

/-- Lets every worker run; a listener that is held does not come back from its callback. -/
def settle (l : Listeners) (held : String → Bool) : Listeners :=
  { l with clients := l.clients.settle held, data := l.data.settle held }

def names (l : Listeners) : List String :=
  (l.clients.entries.map (·.listener) ++ l.data.entries.map (·.listener)).eraseDups

/-- What was told since the last time it was asked for, by listener. -/
def takeTold (l : Listeners) : Listeners × List Told :=
  ({ l with clients := l.clients.forget, data := l.data.forget },
    l.names.map fun name => ⟨name, l.clients.told name, l.data.told name⟩)

end Listeners

end LabelPrinter
