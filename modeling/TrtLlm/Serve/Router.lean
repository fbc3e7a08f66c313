import TrtLlm.Lib.Runs
import TrtLlm.Lib.Table

set_option autoImplicit false

namespace TrtLlm.Serve
open Lib (Table)

abbrev Server := String

inductive RequestType where
  | contextOnly
  | generationOnly
  | other (name : String)
deriving DecidableEq, Repr

-- A text, a token list or a list of these; only the lengths count.
inductive Prompt where
  | one (length : Nat)
  | several (lengths : List Nat)
deriving DecidableEq, Repr

-- The routing tables are keyed by id(request), which tells live objects apart.
structure OpenAIRequest where
  identity : Nat
  isChat : Bool := false
  requestType : Option RequestType := none
  prompt : Prompt := .one 0
  -- ConversationRouter's estimate, len(block_hashes) * tokens_per_block.
  contentWeight : Nat := 0
deriving DecidableEq, Repr

def Prompt.numTokens : Prompt → Except String Nat
  | .one length => .ok length
  | .several [] => .error "list index out of range"
  | .several lengths => .ok lengths.sum

def getRequestNumTokens (request : OpenAIRequest) : Except String Nat :=
  match request.requestType with
  | none | some .contextOnly =>
    if request.isChat then .error "LoadBalancing router with tokens doesn't support ChatCompletionRequest yet"
    else request.prompt.numTokens
  | some .generationOnly => .error "LoadBalancing router with tokens doesn't support generation_only requests"
  | some (.other name) => .error s!"Unsupported request type: {name}"

inductive RouterKind where
  | loadBalancing
  | kvCacheAware
  | conversation
deriving DecidableEq, Repr

structure Config where
  kind : RouterKind
  useTokens : Bool := false
  serverRole : String := "CONTEXT"
  metadataServer : Bool := false
deriving DecidableEq, Repr

-- ConversationRouter balances without the option.
def Config.countsTokens (config : Config) : Bool := config.useTokens && config.kind ≠ .conversation

structure ServerState where
  numActiveRequests : Int := 0
  numActiveTokens : Int := 0
deriving DecidableEq, Repr

structure Router where
  servers : List Server
  serverState : Table Server ServerState
  reqRoutingTable : Table OpenAIRequest Server
  rrCounter : Nat := 0
  -- ConversationRouter only.
  serverContentLoad : Table Server Int
  reqContentEntry : Table OpenAIRequest (Server × Nat)
  -- The membership test of add_server and remove_server and the server list KvCacheAwareRouter scores are read
  -- before the call takes its lock.
  adding : List Server := []
  removing : List Server := []
  choosing : List (OpenAIRequest × List Server) := []
deriving DecidableEq, Repr

variable (config : Config)

def requestTokens (request : OpenAIRequest) : Except String Nat :=
  if config.countsTokens then getRequestNumTokens request else .ok 0

def incrementLoad (request : OpenAIRequest) (state : ServerState) : Except String ServerState :=
  (requestTokens config request).map fun numTokens =>
    ⟨state.numActiveRequests + 1, state.numActiveTokens + numTokens⟩

def decrementLoad (request : OpenAIRequest) (state : ServerState) : Except String ServerState :=
  (requestTokens config request).map fun numTokens =>
    ⟨state.numActiveRequests - 1, state.numActiveTokens - numTokens⟩

def initRouter (servers : List Server) : Router where
  servers := servers
  serverState := servers.foldl (fun states server => Table.put server {} states) []
  reqRoutingTable := []
  serverContentLoad := if config.kind = .conversation then servers.foldl (fun loads server => Table.put server 0 loads) [] else []
  reqContentEntry := []

variable (server : Server) (r : Router)

def getContentLoad : Int := (Table.find server r.serverContentLoad).getD 0

def getServerLoad : Int :=
  if config.kind = .conversation then getContentLoad server r
  else
    let state := (Table.find server r.serverState).getD {}
    if config.countsTokens then state.numActiveTokens else state.numActiveRequests

def minLoad (loads : List Int) : Int := loads.foldl min (loads.headD 0)

variable (excludeServer : Option Server)

def candidates (r : Router) : List Server :=
  (r.serverState.map Prod.fst).filter fun server => some server ≠ excludeServer

def selectLeastLoaded (r : Router) : Option Server × Router :=
  match candidates excludeServer r with
  | [] => (none, r)
  | first :: rest =>
    let lowest := minLoad ((first :: rest).map fun server => getServerLoad config server r)
    let tied := (first :: rest).filter fun server => getServerLoad config server r = lowest
    (tied[r.rrCounter % tied.length]?, { r with rrCounter := r.rrCounter + 1 })

def registerRequest (request : OpenAIRequest) (r : Router) : Except String Router :=
  match Table.find server r.serverState with
  | none => .error s!"KeyError: {server}"
  | some state =>
    (incrementLoad config request state).map fun loaded =>
      { r with
        serverState := Table.put server loaded r.serverState
        reqRoutingTable := Table.put request server r.reqRoutingTable }

-- The server the request was routed to, or "".
def unregisterRequest (request : OpenAIRequest) (r : Router) : Router × Except String Server :=
  match Table.find request r.reqRoutingTable with
  | none => (r, .ok "")
  | some server =>
    let popped := { r with reqRoutingTable := Table.clear request r.reqRoutingTable }
    match Table.find server r.serverState with
    | none => (popped, .ok server)
    | some state =>
      match decrementLoad config request state with
      | .error message => (popped, .error message)
      | .ok lowered => ({ popped with serverState := Table.put server lowered r.serverState }, .ok server)

def addContentLoad (request : OpenAIRequest) (weight : Nat) (r : Router) : Router :=
  { r with
    serverContentLoad := Table.put server (getContentLoad server r + weight) r.serverContentLoad
    reqContentEntry := Table.put request (server, weight) r.reqContentEntry }

def removeContentLoad (request : OpenAIRequest) (r : Router) : Router :=
  match Table.find request r.reqContentEntry with
  | none => r
  | some (_, weight) =>
    { r with
      serverContentLoad := Table.put server (max (getContentLoad server r - weight) 0) r.serverContentLoad
      reqContentEntry := Table.clear request r.reqContentEntry }

def validateServersAvailable : Except String Unit :=
  if r.servers = [] then
    if config.metadataServer then .error s!"No {config.serverRole} servers available in metadata service"
    else .error s!"No {config.serverRole} servers available"
  else .ok ()

def excluded : String :=
  let name := excludeServer.getD "None"
  s!"No available servers after excluding {name}"

-- Counted at its server, for ConversationRouter with its content.
def assignServer (request : OpenAIRequest) (r : Router) : Router × Except String Server :=
  match registerRequest config server request r with
  | .error message => (r, .error message)
  | .ok registered =>
    (if config.kind = .conversation then addContentLoad server request request.contentWeight registered else registered,
     .ok server)

def assignLeastLoaded (request : OpenAIRequest) (excludeServer : Option Server) (r : Router) : Router × Except String Server :=
  match selectLeastLoaded config excludeServer r with
  | (none, r) => (r, .error (excluded excludeServer))
  | (some server, r) => assignServer config server request r

-- The affinity is the server of the session that the conversation id or the block hashes point to; a dead or
-- excluded one is ignored.
def getNextServer (request : OpenAIRequest) (excludeServer affinity : Option Server) (r : Router) :
    Router × Except String Server :=
  match validateServersAvailable config r with
  | .error message => (r, .error message)
  | .ok _ =>
    match if config.kind = .conversation then affinity else none with
    | some sticky =>
      if (Table.find sticky r.serverState).isSome ∧ some sticky ≠ excludeServer then assignServer config sticky request r
      else assignLeastLoaded config request excludeServer r
    | none => assignLeastLoaded config request excludeServer r

-- get_next_server up to its scoring.
def beginChoice (request : OpenAIRequest) (excludeServer : Option Server) (r : Router) : Router × Except String Unit :=
  match candidates excludeServer r with
  | [] => (r, .error (excluded excludeServer))
  | servers => ({ r with choosing := r.choosing ++ [(request, servers)] }, .ok ())

def endChoice (request : OpenAIRequest) (servers : List Server) (winner : Server) (r : Router) : Router × Except String Server :=
  let counter := if servers.length = 1 then r.rrCounter else r.rrCounter + 1
  assignServer config winner request
    { r with choosing := r.choosing.erase (request, servers), rrCounter := counter }

def finishRequest (request : OpenAIRequest) (r : Router) : Router × Except String Unit :=
  match unregisterRequest config request r with
  | (r, .error message) => (r, .error message)
  | (r, .ok server) => (if config.kind = .conversation then removeContentLoad server request r else r, .ok ())

def onServersUpdated (oldServers newServers : List Server) (r : Router) : Router :=
  let synced := { r with
    serverState := newServers.foldl
      (fun states server => Table.put server ((Table.find server r.serverState).getD {}) states) [] }
  if config.kind = .conversation then
    let opened := newServers.foldl
      (fun loads server => if (Table.find server loads).isSome then loads else Table.put server 0 loads) r.serverContentLoad
    let removed := oldServers.filter fun server => server ∉ newServers
    { synced with serverContentLoad := removed.foldl (fun loads server => Table.clear server loads) opened }
  else synced

def beginAdd : Router :=
  if server ∈ r.servers then r else { r with adding := r.adding ++ [server] }

def endAdd : Router :=
  onServersUpdated config r.servers (r.servers ++ [server])
    { r with servers := r.servers ++ [server], adding := r.adding.erase server }

def beginRemove : Router :=
  if server ∈ r.servers then { r with removing := r.removing ++ [server] } else r

def endRemove : Router :=
  let kept := r.servers.filter fun other => other ≠ server
  onServersUpdated config r.servers kept { r with servers := kept, removing := r.removing.erase server }

end TrtLlm.Serve
