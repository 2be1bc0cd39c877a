import SiteFilter.Channel.Client
import SiteFilter.Settings.Places

/-!
# The socket of the channel

The server listens on a socket in the file tree. Listening again replaces the socket.
-/

namespace SiteFilter.Channel

structure Server where
  storage : KeyedStorage
  path : Path
  listening : Bool

namespace Server

def ofSettings (settings : Settings) (env : Environment) (files : FileTree) :
    Except Fault Server := do
  let storage ← settings.groupStorageDirectory env
  let path ← socketPath env files settings.groupId.plainText
  return ⟨⟨storage, env.limits⟩, path, false⟩

/-- The most octets that the address of a socket has room for. -/
def addressLimit : Nat := 107

def bind (path : Path) : FileAction Unit := do
  FileAction.makeDirectories path.parent
  if addressLimit < path.text.octetCount then throw (.socketUnavailable path none)
  let route ← FileAction.place path
  modify (·.put route .socket)

/-- Listens on the socket, in the place of whatever file was there. -/
def start (server : Server) : Action Server := do
  if ← Action.ask (·.has server.path) then Action.onFiles (FileAction.unlink server.path)
  tryCatch (Action.onFiles (bind server.path)) fun e =>
    match e with
    | .os cause => throw (.socketUnavailable server.path (some cause))
    | _ => throw e
  Action.note .debug "exactblock.protocol.transport"
    (Text.ofString "Listening on " ++ server.path.text)
  Action.note .info source (Text.ofString "Rule channel listening on " ++ server.path.text)
  return { server with listening := true }

def close (server : Server) : Action Server := do
  if ← Action.ask (·.has server.path) then Action.onFiles (FileAction.unlink server.path)
  return { server with listening := false }

def peer (server : Server) : Action Peer := do
  match (← get).files.look server.path with
  | .ok (some .socket) =>
      if server.listening then
        let transcript ← connection server.storage true request
        return .replying transcript.sent
      else return .missing
  | _ => return .missing

end Server

end SiteFilter.Channel
