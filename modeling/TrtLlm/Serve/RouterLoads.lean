import TrtLlm.Serve.Router

set_option autoImplicit false

namespace TrtLlm.Serve
open List Lib.Table
open Lib (Table Trace AllSteps)

structure Flight where
  request : OpenAIRequest
  server : Server
  weight : Nat
deriving DecidableEq, Repr

-- The requests routed to a server since it was last added and not yet finished: ghost state.
structure Serving where
  router : Router
  flights : List Flight
deriving DecidableEq, Repr

inductive Action where
  | getNextServer (request : OpenAIRequest) (excludeServer affinity : Option Server)
  | beginChoice (request : OpenAIRequest) (excludeServer : Option Server)
  | endChoice (request : OpenAIRequest) (servers : List Server) (winner : Server)
  | abandonChoice (request : OpenAIRequest) (servers : List Server)
  | finishRequest (request : OpenAIRequest)
  | beginAdd (server : Server)
  | endAdd (server : Server)
  | beginRemove (server : Server)
  | endRemove (server : Server)
deriving DecidableEq, Repr

variable (config : Config)

def recordFlight (request : OpenAIRequest) (flights : List Flight) : Router × Except String Server → Serving
  | (r, .ok server) => ⟨r, flights ++ [⟨request, server, request.contentWeight⟩]⟩
  | (r, .error _) => ⟨r, flights⟩

-- One critical section. Scoring may pick any server of its list, or raise.
inductive Step : Serving → Action → Serving → Prop
  | getNextServer {s : Serving} (request : OpenAIRequest) (excludeServer affinity : Option Server) : config.kind ≠ .kvCacheAware →
      Step s (.getNextServer request excludeServer affinity)
        (recordFlight request s.flights (getNextServer config request excludeServer affinity s.router))
  | beginChoice {s : Serving} (request : OpenAIRequest) (excludeServer : Option Server) : config.kind = .kvCacheAware →
      Step s (.beginChoice request excludeServer) ⟨(beginChoice request excludeServer s.router).1, s.flights⟩
  | endChoice {s : Serving} (request : OpenAIRequest) (servers : List Server) (winner : Server) :
      (request, servers) ∈ s.router.choosing → winner ∈ servers →
      Step s (.endChoice request servers winner)
        (recordFlight request s.flights (endChoice config request servers winner s.router))
  | abandonChoice {s : Serving} (request : OpenAIRequest) (servers : List Server) : (request, servers) ∈ s.router.choosing →
      Step s (.abandonChoice request servers)
        ⟨{ s.router with choosing := s.router.choosing.erase (request, servers) }, s.flights⟩
  | finishRequest {s : Serving} (request : OpenAIRequest) : Step s (.finishRequest request)
        ⟨(finishRequest config request s.router).1, s.flights.filter fun flight => flight.request ≠ request⟩
  | beginAdd {s : Serving} (server : Server) : Step s (.beginAdd server) ⟨beginAdd server s.router, s.flights⟩
  | endAdd {s : Serving} (server : Server) : server ∈ s.router.adding →
      Step s (.endAdd server) ⟨endAdd config server s.router, s.flights⟩
  | beginRemove {s : Serving} (server : Server) : Step s (.beginRemove server) ⟨beginRemove server s.router, s.flights⟩
  | endRemove {s : Serving} (server : Server) : server ∈ s.router.removing → Step s (.endRemove server)
        ⟨endRemove config server s.router, s.flights.filter fun flight => flight.server ≠ server⟩

-- A request is not routed again before it is finished, and a server comes back only once the requests routed to
-- it are finished.
def Guard (s : Serving) : Action → Prop
  | .getNextServer request _ _ | .endChoice request _ _ => Table.find request s.router.reqRoutingTable = none
  | .endAdd server => server ∈ s.router.servers ∨ ∀ request, Table.find request s.router.reqRoutingTable ≠ some server
  | _ => True

def activeFlights (flights : List Flight) (server : Server) : Nat :=
  (flights.filter fun flight => flight.server = server).length

def contentFlights (flights : List Flight) (server : Server) : Nat :=
  ((flights.filter fun flight => flight.server = server).map Flight.weight).sum

def Exact (s : Serving) : Prop :=
  ∀ server state, Table.find server s.router.serverState = some state →
    state.numActiveRequests = activeFlights s.flights server ∧
    (config.kind = .conversation → getContentLoad server s.router = contentFlights s.flights server)

def toFlight (entry : OpenAIRequest × Server) : Flight := ⟨entry.1, entry.2, entry.1.contentWeight⟩

def inFlight (r : Router) : List Flight := (r.reqRoutingTable.filter fun entry => entry.2 ∈ r.servers).map toFlight

structure Balanced (s : Serving) : Prop where
  exact_loads : Exact config s
  listed : ∀ server, (Table.find server s.router.serverState).isSome ↔ server ∈ s.router.servers
  keys : (s.router.reqRoutingTable.map Prod.fst).Nodup
  flown : s.flights = inFlight s.router
  counted : ∀ request server, Table.find request s.router.reqRoutingTable = some server →
    ∃ numTokens, requestTokens config request = .ok numTokens
  entries : config.kind = .conversation → s.router.reqContentEntry =
    s.router.reqRoutingTable.map fun entry => (entry.1, (entry.2, entry.1.contentWeight))
  vacant : config.kind = .conversation → ∀ server, server ∉ s.router.servers → getContentLoad server s.router = 0

variable {config} {r : Router} {flights : List Flight} {request : OpenAIRequest} {server : Server}

section
variable (balanced : Balanced config ⟨r, flights⟩)

include balanced

theorem Balanced.retable (next : Router) (srvs : next.servers = r.servers)
    (states : next.serverState = r.serverState) (routing : next.reqRoutingTable = r.reqRoutingTable)
    (loads : next.serverContentLoad = r.serverContentLoad) (entries : next.reqContentEntry = r.reqContentEntry) :
    Balanced config ⟨next, flights⟩ := by
  cases next
  cases srvs
  cases states
  cases routing
  cases loads
  cases entries
  exact { balanced with }

theorem Balanced.routed (flight : Flight) (mem : flight ∈ flights) :
    find flight.request r.reqRoutingTable = some flight.server ∧ flight.server ∈ r.servers := by
  have mem : flight ∈ inFlight r := balanced.flown ▸ mem
  obtain ⟨entry, there, rfl⟩ := mem_map.mp mem
  obtain ⟨there, live⟩ := mem_filter.mp there
  exact ⟨find_of_mem entry.2 balanced.keys there, of_decide_eq_true live⟩

theorem Balanced.no_entry (missing : find request r.reqRoutingTable = none)
    (conv : config.kind = .conversation) : find request r.reqContentEntry = none := by
  apply find_none
  rw [show r.reqContentEntry = _ from balanced.entries conv, map_map]
  exact not_mem_keys missing

end

theorem active_push (flight : Flight) :
    activeFlights (flights ++ [flight]) server = activeFlights flights server + if flight.server = server then 1 else 0 := by
  unfold activeFlights
  by_cases same : flight.server = server <;> simp [same]

theorem content_push (flight : Flight) : contentFlights (flights ++ [flight]) server =
      contentFlights flights server + if flight.server = server then flight.weight else 0 := by
  unfold contentFlights
  by_cases same : flight.server = server <;> simp [same]

theorem assign_cases (config : Config) (server : Server) (request : OpenAIRequest) (r : Router) :
    (∃ msg, assignServer config server request r = (r, .error msg)) ∨
      ∃ next st numTokens, assignServer config server request r = (next, .ok server) ∧
      find server r.serverState = some st ∧ requestTokens config request = .ok numTokens ∧ next.servers = r.servers ∧
      next.serverState = put server ⟨st.numActiveRequests + 1, st.numActiveTokens + numTokens⟩ r.serverState ∧
      next.reqRoutingTable = put request server r.reqRoutingTable ∧ (config.kind = .conversation →
        next.serverContentLoad = put server (getContentLoad server r + request.contentWeight) r.serverContentLoad ∧
        next.reqContentEntry = put request (server, request.contentWeight) r.reqContentEntry) := by
  unfold assignServer registerRequest incrementLoad
  cases found : find server r.serverState with
  | none => exact .inl ⟨_, rfl⟩
  | some st =>
    cases tokens : requestTokens config request with
    | error msg => exact .inl ⟨msg, rfl⟩
    | ok numTokens =>
      refine .inr ⟨_, st, numTokens, rfl, rfl, rfl, ?_⟩
      split
      · exact ⟨rfl, rfl, rfl, fun _ => ⟨rfl, rfl⟩⟩
      · next other => exact ⟨rfl, rfl, rfl, fun now => absurd now other⟩

theorem assign_recorded (balanced : Balanced config ⟨r, flights⟩) (fresh : find request r.reqRoutingTable = none) :
    Balanced config (recordFlight request flights (assignServer config server request r)) := by
  obtain ⟨msg, failed⟩ | ⟨next, st, numTokens, done, found, tokens, srvs, states, routing, contents⟩ :=
    assign_cases config server request r
  · rw [failed]
    exact balanced
  rw [done, recordFlight]
  have live : server ∈ r.servers := (balanced.listed server).mp (by rw [show find server r.serverState = _ from found]; rfl)
  have appended := routing.trans (put_missing server fresh)
  have stateAt : ∀ other, find other next.serverState = if other = server then
      some ⟨st.numActiveRequests + 1, st.numActiveTokens + numTokens⟩ else find other r.serverState := by
    intro other
    rw [states, find_put]
  have loadAt : config.kind = .conversation → ∀ other, getContentLoad other next =
      if other = server then getContentLoad server r + request.contentWeight else getContentLoad other r := by
    intro conv other
    rw [getContentLoad, (contents conv).1, find_put]
    split
    · rfl
    · rfl
  constructor
  · intro other own at_other
    rw [active_push, content_push]
    rw [stateAt] at at_other
    by_cases same : other = server
    · subst same
      rw [if_pos rfl] at at_other
      cases at_other
      obtain ⟨reqs, load⟩ := balanced.exact_loads other st found
      refine ⟨by simp only [if_true]; push_cast; rw [reqs], fun conv => ?_⟩
      rw [loadAt conv, if_pos rfl, if_pos rfl, load conv]
      rfl
    · rw [if_neg same] at at_other
      have ne : ¬server = other := fun equal => same equal.symm
      obtain ⟨reqs, load⟩ := balanced.exact_loads other own at_other
      refine ⟨by rw [if_neg ne]; exact reqs, fun conv => ?_⟩
      rw [loadAt conv, if_neg same, if_neg ne]
      exact load conv
  · intro other
    rw [stateAt, srvs]
    split
    · next same =>
      rw [same]
      exact iff_of_true rfl live
    · exact balanced.listed other
  · exact routing ▸ nodup_put request _ server balanced.keys
  · rw [show flights = inFlight r from balanced.flown, inFlight, inFlight, srvs, appended, filter_append, map_append]
    simp [live, toFlight]
  · intro other own routed
    rw [routing, find_put] at routed
    by_cases same : other = request
    · exact ⟨numTokens, same ▸ tokens⟩
    · rw [if_neg same] at routed
      exact balanced.counted other own routed
  · intro conv
    have before : r.reqContentEntry = _ := balanced.entries conv
    rw [(contents conv).2, put_missing _ (balanced.no_entry fresh conv), appended, before, map_append]
    rfl
  · intro conv other outside
    have outside : other ∉ r.servers := srvs ▸ outside
    have apart : ¬other = server := fun same => outside (same ▸ live)
    rw [loadAt conv, if_neg apart]
    exact balanced.vacant conv other outside

theorem select_frame (config : Config) (r : Router) (excludeServer : Option Server) :
    ∃ choice counter, selectLeastLoaded config excludeServer r = (choice, { r with rrCounter := counter }) := by
  unfold selectLeastLoaded
  split
  · exact ⟨none, r.rrCounter, rfl⟩
  · exact ⟨_, r.rrCounter + 1, rfl⟩

theorem least_loaded_recorded (excludeServer : Option Server) (balanced : Balanced config ⟨r, flights⟩)
    (fresh : find request r.reqRoutingTable = none) :
    Balanced config (recordFlight request flights (assignLeastLoaded config request excludeServer r)) := by
  obtain ⟨choice, counter, selected⟩ := select_frame config r excludeServer
  have counted := balanced.retable { r with rrCounter := counter } rfl rfl rfl rfl rfl
  rw [assignLeastLoaded, selected]
  cases choice with
  | none => exact counted
  | some server => exact assign_recorded counted fresh

theorem find_foldl_put {Value : Type} (server : Server) (val : Server → Value) (keys : List Server) (table : Table Server Value) :
    find server (keys.foldl (fun states key => put key (val key) states) table) =
      if server ∈ keys then some (val server) else find server table := by
  induction keys generalizing table with
  | nil => simp
  | cons key rest ih =>
    rw [foldl_cons, ih, find_put]
    by_cases later : server ∈ rest
    · simp [later]
    · by_cases here : server = key <;> simp [later, here]

theorem find_foldl_open (keys : List Server) (loads : Table Server Int) : (find server (keys.foldl
      (fun loads key => if (find key loads).isSome then loads else put key 0 loads) loads)).getD 0 =
      (find server loads).getD 0 := by
  induction keys generalizing loads with
  | nil => rfl
  | cons key rest ih =>
    rw [foldl_cons, ih]
    split
    · rfl
    rename_i missing
    rw [find_put]
    split
    · next here =>
      rw [here, Option.not_isSome_iff_eq_none.mp missing]
      rfl
    · rfl

section
variable (config : Config) (r : Router) (oldServers newServers : List Server)

theorem updated_tables : let next := onServersUpdated config oldServers newServers r
    next.servers = r.servers ∧ next.reqRoutingTable = r.reqRoutingTable ∧ next.reqContentEntry = r.reqContentEntry ∧
      ∀ server, find server next.serverState =
        if server ∈ newServers then some ((find server r.serverState).getD {}) else none := by
  have synced := fun server => find_foldl_put server (fun key => (find key r.serverState).getD {}) newServers []
  unfold onServersUpdated
  split
  · exact ⟨rfl, rfl, rfl, synced⟩
  · exact ⟨rfl, rfl, rfl, synced⟩

theorem updated_load (server : Server) (conv : config.kind = .conversation) :
    getContentLoad server (onServersUpdated config oldServers newServers r) =
      if server ∈ oldServers ∧ server ∉ newServers then 0 else getContentLoad server r := by
  unfold onServersUpdated getContentLoad
  rw [if_pos conv]
  rw [find_foldl_clear]
  by_cases left : server ∈ oldServers ∧ server ∉ newServers
  · have gone : server ∈ oldServers.filter fun server => server ∉ newServers := by simpa using left
    rw [if_pos left, if_pos gone]
    rfl
  · have stays : server ∉ oldServers.filter fun server => server ∉ newServers := by simpa using left
    rw [if_neg left, if_neg stays]
    exact find_foldl_open newServers r.serverContentLoad

end

theorem update_balanced {changed : Router} {kept : List Flight} (balanced : Balanced config ⟨r, flights⟩)
    (frame : changed = { r with servers := changed.servers, adding := changed.adding, removing := changed.removing })
    (flown : kept = inFlight changed) (same : ∀ server ∈ changed.servers,
      kept.filter (fun flight => flight.server = server) = flights.filter fun flight => flight.server = server) :
    Balanced config ⟨onServersUpdated config r.servers changed.servers changed, kept⟩ := by
  obtain ⟨srvs, routing, entry, stateAt⟩ := updated_tables config changed r.servers changed.servers
  have loadAt := fun server => updated_load config changed r.servers changed.servers server
  have states : changed.serverState = r.serverState := by rw [frame]
  have routes : changed.reqRoutingTable = r.reqRoutingTable := by rw [frame]
  have entries : changed.reqContentEntry = r.reqContentEntry := by rw [frame]
  have loads : ∀ server, getContentLoad server changed = getContentLoad server r := by
    rw [frame]
    exact fun _ => rfl
  simp only [states, loads] at stateAt loadAt
  rw [routes] at routing
  rw [entries] at entry
  constructor
  · intro server own found
    have found := (stateAt server).symm.trans found
    split at found
    · next inside =>
      have stays : ¬(server ∈ r.servers ∧ server ∉ changed.servers) := fun left => left.2 inside
      rw [activeFlights, contentFlights, same server inside]
      rcases Option.eq_none_or_eq_some (find server r.serverState) with missing | ⟨st, before⟩
      · have outside : server ∉ r.servers := fun mem => by
          have there := (balanced.listed server).mpr mem
          rw [show find server r.serverState = none from missing] at there
          cases there
        have idle : flights.filter (fun flight => flight.server = server) = [] := by
          apply filter_eq_nil_iff.mpr
          intro flight mem same
          exact outside (of_decide_eq_true same ▸ (balanced.routed flight mem).2)
        rw [missing] at found
        cases found
        refine ⟨by rw [idle]; rfl, fun conv => ?_⟩
        rw [loadAt server conv, if_neg stays, idle]
        exact balanced.vacant conv server outside
      · rw [before] at found
        cases found
        obtain ⟨reqs, load⟩ := balanced.exact_loads server st before
        refine ⟨reqs, fun conv => ?_⟩
        rw [loadAt server conv, if_neg stays]
        exact load conv
    · cases found
  · intro server
    rw [srvs, stateAt server]
    by_cases inside : server ∈ changed.servers <;> simp [inside]
  · rw [routing]
    exact balanced.keys
  · rw [flown, inFlight, inFlight, srvs, routing, routes]
  · exact fun request server routed => balanced.counted request server (routing ▸ routed)
  · intro conv
    rw [entry, routing]
    exact balanced.entries conv
  · intro conv server outside
    have outside : server ∉ changed.servers := srvs ▸ outside
    refine (loadAt server conv).trans ?_
    by_cases before : server ∈ r.servers
    · rw [if_pos ⟨before, outside⟩]
    · rw [if_neg fun left => before left.1]
      exact balanced.vacant conv server before

theorem add_balanced (balanced : Balanced config ⟨r, flights⟩)
    (clean : server ∈ r.servers ∨ ∀ request, find request r.reqRoutingTable ≠ some server) :
    Balanced config ⟨endAdd config server r, flights⟩ := by
  refine update_balanced balanced rfl ?_
    fun _ _ => rfl
  refine balanced.flown.trans (congrArg (List.map toFlight) (filter_congr fun entry mem => ?_))
  have routed := find_of_mem entry.2 balanced.keys mem
  have joined : entry.2 = server → server ∈ r.servers := fun same =>
    clean.resolve_right fun unrouted => unrouted entry.1 (same ▸ routed)
  by_cases same : entry.2 = server
  · simp [same, joined same]
  · simp [same]

theorem remove_balanced (balanced : Balanced config ⟨r, flights⟩) :
    Balanced config ⟨endRemove config server r, flights.filter fun flight => flight.server ≠ server⟩ := by
  refine update_balanced balanced rfl ?_ ?_
  · rw [show flights = inFlight r from balanced.flown, inFlight, inFlight, filter_map, filter_filter]
    refine congrArg (List.map toFlight) (filter_congr fun entry _ => ?_)
    by_cases same : entry.2 = server <;> simp [toFlight, same]
  intro other inside
  have apart : other ≠ server := by simpa using (mem_filter.mp inside).2
  rw [filter_filter]
  apply filter_congr
  intro flight _
  by_cases same : flight.server = other <;> simp [same, apart]

theorem drop_flight (once : (flights.map Flight.request).Nodup) (flight : Flight) (mem : flight ∈ flights) (other : Server) :
    activeFlights flights other = activeFlights (flights.filter fun f => f.request ≠ flight.request) other +
      (if flight.server = other then 1 else 0) ∧
    contentFlights flights other = contentFlights (flights.filter fun f => f.request ≠ flight.request) other +
      (if flight.server = other then flight.weight else 0) := by
  have dropped : flights.erase flight = flights.filter fun f => f.request ≠ flight.request := by
    rw [once.of_map.erase_eq_filter]
    refine filter_congr fun f inside => ?_
    have same : f.request = flight.request ↔ f = flight := ⟨inj_on_of_nodup_map once inside mem, congrArg Flight.request⟩
    rw [Bool.eq_iff_iff]
    simp [same]
  have moved := (perm_cons_erase mem).filter fun f => f.server = other
  rw [← dropped, activeFlights, contentFlights, moved.length_eq, (moved.map _).sum_eq, activeFlights, contentFlights]
  by_cases same : flight.server = other <;> simp [same, Nat.add_comm]

theorem finish_cases {server : Server} {numTokens : Nat} (routed : find request r.reqRoutingTable = some server)
    (tokens : requestTokens config request = .ok numTokens) : ∃ states, (finishRequest config request r).1 =
      (if config.kind = .conversation then
        removeContentLoad server request { r with reqRoutingTable := clear request r.reqRoutingTable, serverState := states }
      else { r with reqRoutingTable := clear request r.reqRoutingTable, serverState := states }) ∧
      ∀ other, find other states = if other = server then (find server r.serverState).map
        fun st => ⟨st.numActiveRequests - 1, st.numActiveTokens - numTokens⟩ else find other r.serverState := by
  unfold finishRequest unregisterRequest decrementLoad
  rw [routed, tokens]
  dsimp only
  cases found : find server r.serverState with
  | none =>
    refine ⟨r.serverState, rfl, fun other => ?_⟩
    split
    · next same =>
      rw [same, found]
      rfl
    · rfl
  | some st =>
    refine ⟨_, rfl, fun other => ?_⟩
    rw [find_put]
    rfl

theorem finish_tables (server : Server) (balanced : Balanced config ⟨r, flights⟩)
    (routed : find request r.reqRoutingTable = some server) :
    ∃ next numTokens, (finishRequest config request r).1 = next ∧ next.servers = r.servers ∧
      next.reqRoutingTable = clear request r.reqRoutingTable ∧
      (∀ other, find other next.serverState = if other = server then (find server r.serverState).map
        fun st => ⟨st.numActiveRequests - 1, st.numActiveTokens - numTokens⟩ else find other r.serverState) ∧
      (config.kind = .conversation → (∀ other, getContentLoad other next = if other = server then
          max (getContentLoad server r - request.contentWeight) 0 else getContentLoad other r) ∧
        next.reqContentEntry = clear request r.reqContentEntry) := by
  obtain ⟨numTokens, tokens⟩ := balanced.counted request server routed
  obtain ⟨states, res, stateAt⟩ := finish_cases routed tokens
  by_cases conv : config.kind = .conversation
  · have entry : find request r.reqContentEntry = some (server, request.contentWeight) := by
      rw [show r.reqContentEntry = _ from balanced.entries conv]
      refine find_of_mem _ ?_ (mem_map.mpr ⟨(request, server), mem_of_find server routed, rfl⟩)
      rw [map_map]
      exact balanced.keys
    rw [if_pos conv, removeContentLoad, entry] at res
    refine ⟨_, numTokens, res, rfl, rfl, stateAt, fun _ => ⟨fun other => ?_, rfl⟩⟩
    show (find other (put server _ r.serverContentLoad)).getD 0 = _
    rw [find_put]
    split
    · rfl
    · rfl
  · rw [if_neg conv] at res
    exact ⟨_, numTokens, res, rfl, rfl, stateAt, fun now => absurd now conv⟩

section
variable (balanced : Balanced config ⟨r, flights⟩)

include balanced

theorem finish_unrouted (missing : find request r.reqRoutingTable = none) : (finishRequest config request r).1 = r := by
  unfold finishRequest unregisterRequest
  rw [missing]
  dsimp only
  split
  · rename_i conv
    rw [removeContentLoad, balanced.no_entry missing conv]
  · rfl

theorem Balanced.grounded (away : ∀ server ∈ r.servers, find request r.reqRoutingTable ≠ some server) :
    flights.filter (fun flight => flight.request ≠ request) = flights := by
  apply filter_eq_self.mpr
  intro flight mem
  obtain ⟨routed, live⟩ := balanced.routed flight mem
  have apart : flight.request ≠ request := by
    rintro rfl
    exact away _ live routed
  simpa using apart

theorem Balanced.landed (server other : Server)
    (routed : find request r.reqRoutingTable = some server) (live : other ∈ r.servers) :
    activeFlights flights other = activeFlights (flights.filter fun flight => flight.request ≠ request) other +
      (if server = other then 1 else 0) ∧
    contentFlights flights other = contentFlights (flights.filter fun flight => flight.request ≠ request) other +
      (if server = other then request.contentWeight else 0) := by
  by_cases there : server ∈ r.servers
  · have once : (flights.map Flight.request).Nodup := by
      rw [show flights = inFlight r from balanced.flown, inFlight, map_map]
      exact balanced.keys.sublist (filter_sublist.map _)
    have mem : toFlight (request, server) ∈ flights := by
      rw [show flights = inFlight r from balanced.flown]
      exact mem_map_of_mem (mem_filter.mpr ⟨mem_of_find server routed, decide_eq_true there⟩)
    exact drop_flight once _ mem other
  · have apart : ¬server = other := fun same => there (same ▸ live)
    rw [balanced.grounded fun own inside found => there (Option.some.inj (routed.symm.trans found) ▸ inside),
      if_neg apart, if_neg apart]
    exact ⟨rfl, rfl⟩

theorem finish_balanced :
    Balanced config ⟨(finishRequest config request r).1, flights.filter fun flight => flight.request ≠ request⟩ := by
  rcases Option.eq_none_or_eq_some (find request r.reqRoutingTable) with missing | ⟨server, routed⟩
  · rw [finish_unrouted balanced missing, balanced.grounded fun own _ found => nomatch missing.symm.trans found]
    exact balanced
  obtain ⟨next, numTokens, res, srvs, routing, stateAt, contents⟩ := finish_tables server balanced routed
  rw [res]
  constructor
  · intro other own found
    have live : other ∈ r.servers := by
      have found := (stateAt other).symm.trans found
      split at found
      · next here =>
        obtain ⟨st, before, _⟩ := Option.map_eq_some_iff.mp found
        exact (balanced.listed other).mp (by rw [here]; exact before ▸ rfl)
      · exact (balanced.listed other).mp (found ▸ rfl)
    have found := (stateAt other).symm.trans found
    obtain ⟨active, content⟩ := balanced.landed server other routed live
    by_cases here : other = server
    · subst here
      rw [if_pos rfl] at found active content
      obtain ⟨st, before, rfl⟩ := Option.map_eq_some_iff.mp found
      obtain ⟨reqs, load⟩ := balanced.exact_loads other st before
      refine ⟨?_, fun conv => ?_⟩
      · rw [reqs, active]
        push_cast
        omega
      · rw [(contents conv).1, if_pos rfl, load conv, content]
        push_cast
        omega
    · have ne : ¬server = other := fun equal => here equal.symm
      rw [if_neg here] at found
      rw [if_neg ne] at active content
      obtain ⟨reqs, load⟩ := balanced.exact_loads other own found
      refine ⟨by rw [reqs, active]; rfl, fun conv => ?_⟩
      rw [(contents conv).1, if_neg here, load conv, content]
      rfl
  · intro other
    rw [stateAt, srvs]
    split
    · next same =>
      rw [Option.isSome_map, same]
      exact balanced.listed server
    · exact balanced.listed other
  · exact routing ▸ balanced.keys.sublist (filter_sublist.map _)
  · rw [show flights = inFlight r from balanced.flown, inFlight, inFlight, srvs, routing, clear, filter_map,
      filter_filter, filter_filter]
    refine congrArg (List.map toFlight) (filter_congr fun entry _ => ?_)
    by_cases same : entry.1 = request <;> simp [toFlight, same]
  · intro other own found
    rw [routing, find_clear] at found
    split at found
    · cases found
    · exact balanced.counted other own found
  · intro conv
    rw [(contents conv).2, routing, show r.reqContentEntry = _ from balanced.entries conv, clear,
      clear, filter_map]
    rfl
  · intro conv other outside
    have outside : other ∉ r.servers := srvs ▸ outside
    rw [(contents conv).1]
    split
    · rename_i same
      have empty := balanced.vacant conv other outside
      rw [← same, empty]
      omega
    · exact balanced.vacant conv other outside

end

theorem balanced_initial (config : Config) (srvs : List Server) : Balanced config ⟨initRouter config srvs, []⟩ := by
  have stateAt : ∀ server, find server (initRouter config srvs).serverState =
      if server ∈ srvs then some ({} : ServerState) else none := fun server =>
    find_foldl_put server (fun _ => ({} : ServerState)) srvs []
  have idle : ∀ server, getContentLoad server (initRouter config srvs) = 0 := by
    intro server
    unfold getContentLoad initRouter
    split
    · rw [find_foldl_put server (fun _ => (0 : Int)) srvs []]
      split
      · rfl
      · rfl
    · rfl
  refine ⟨?_, ?_, nodup_nil, rfl, ?_, fun _ => rfl, fun _ server _ => idle server⟩
  · intro server st found
    have found := (stateAt server).symm.trans found
    split at found
    · cases found
      exact ⟨rfl, fun _ => idle server⟩
    · cases found
  · intro server
    rw [stateAt]
    show _ ↔ server ∈ srvs
    by_cases inside : server ∈ srvs <;> simp [inside]
  · intro request server found
    cases found

theorem step_balanced (s next : Serving) (action : Action) (balanced : Balanced config s) (guarded : Guard s action)
    (step : Step config s action next) : Balanced config next := by
  cases step with
  | getNextServer request excludeServer affinity _ =>
    unfold getNextServer
    split
    · exact balanced
    split
    · split
      · exact assign_recorded balanced guarded
      · exact least_loaded_recorded excludeServer balanced guarded
    · exact least_loaded_recorded excludeServer balanced guarded
  | beginChoice request excludeServer _ =>
    unfold beginChoice
    split
    · exact balanced
    · exact balanced.retable _ rfl rfl rfl rfl rfl
  | endChoice request srvs winner _ _ =>
    exact assign_recorded (balanced.retable _ rfl rfl rfl rfl rfl) guarded
  | abandonChoice request srvs _ => exact balanced.retable _ rfl rfl rfl rfl rfl
  | finishRequest request => exact finish_balanced balanced
  | beginAdd server =>
    unfold beginAdd
    split
    · exact balanced
    · exact balanced.retable _ rfl rfl rfl rfl rfl
  | endAdd server _ => exact add_balanced balanced guarded
  | beginRemove server =>
    unfold beginRemove
    split
    · exact balanced.retable _ rfl rfl rfl rfl rfl
    · exact balanced
  | endRemove server _ => exact remove_balanced balanced

theorem loads_exact_of_guarded (config : Config) (servers : List Server) (run : List (Action × Serving))
    (trace : Trace (Step config) ⟨initRouter config servers, []⟩ run)
    (guarded : AllSteps Guard ⟨initRouter config servers, []⟩ run) : ∀ entry ∈ run, Exact config entry.2 ∧
      ∀ server state, Table.find server entry.2.router.serverState = some state → 0 ≤ state.numActiveRequests ∧
        (entry.2.flights = [] → state.numActiveRequests = 0 ∧
          (config.kind = .conversation → getContentLoad server entry.2.router = 0)) := by
  intro entry mem
  have balanced := Lib.trace_invariant Guard (Balanced config)
    (fun s action next inv met step => step_balanced s next action inv met step) _ run trace guarded
    (balanced_initial config servers) entry mem
  refine ⟨balanced.exact_loads, fun server state found => ?_⟩
  obtain ⟨reqs, load⟩ := balanced.exact_loads server state found
  refine ⟨reqs ▸ Int.natCast_nonneg _, fun idle => ?_⟩
  rw [idle] at reqs load
  exact ⟨reqs, load⟩

theorem remaining_request_counted : ∃ run, Trace (Step { kind := .conversation })
    ⟨initRouter { kind := .conversation } ["A", "B"], []⟩ run ∧ run.length = 5 ∧
      ∀ entry ∈ run, Exact { kind := .conversation } entry.2 := by
  have trace : Trace (Step { kind := .conversation }) ⟨initRouter { kind := .conversation } ["A", "B"], []⟩ _ :=
    .cons (.getNextServer ⟨1, false, none, .one 0, 3⟩ none none (by decide))
      (.cons (.getNextServer ⟨2, false, none, .one 0, 2⟩ none (some "A") (by decide))
        (.cons (.beginRemove "B") (.cons (.endRemove "B" (by decide))
          (.cons (.finishRequest ⟨1, false, none, .one 0, 3⟩) (.nil _)))))
  refine ⟨_, trace, rfl, fun entry mem => ?_⟩
  exact (loads_exact_of_guarded { kind := .conversation } ["A", "B"] _ trace
    ⟨rfl, rfl, trivial, trivial, trivial, trivial⟩ entry mem).1

def GoesNegative (kind : RouterKind) : Prop :=
  ∃ run, Trace (Step { kind }) ⟨initRouter { kind } ["A"], []⟩ run ∧
    ∃ entry ∈ run, entry.2.flights = [] ∧ Table.find "A" entry.2.router.serverState = some ⟨-1, 0⟩

theorem goes_negative (kind : RouterKind) : GoesNegative kind := by
  cases kind with
  | loadBalancing | conversation =>
    refine ⟨_, .cons (.getNextServer ⟨1, false, none, .one 0, 0⟩ none none (by decide)) (.cons (.beginRemove "A")
      (.cons (.endRemove "A" (by decide)) (.cons (.beginAdd "A") (.cons (.endAdd "A" (by decide))
      (.cons (.finishRequest ⟨1, false, none, .one 0, 0⟩) (.nil _)))))), _, mem_of_getLast? rfl, ?_, ?_⟩
    · decide
    · decide
  | kvCacheAware =>
    refine ⟨_, .cons (.beginChoice ⟨1, false, none, .one 0, 0⟩ none rfl)
      (.cons (.endChoice ⟨1, false, none, .one 0, 0⟩ ["A"] "A" (by decide) (by decide)) (.cons (.beginRemove "A")
      (.cons (.endRemove "A" (by decide)) (.cons (.beginAdd "A") (.cons (.endAdd "A" (by decide))
      (.cons (.finishRequest ⟨1, false, none, .one 0, 0⟩) (.nil _))))))), _, mem_of_getLast? rfl, ?_, ?_⟩
    · decide
    · decide

theorem returning_server_negative : GoesNegative .loadBalancing ∧ GoesNegative .kvCacheAware ∧ GoesNegative .conversation :=
  ⟨goes_negative _, goes_negative _, goes_negative _⟩

end TrtLlm.Serve
