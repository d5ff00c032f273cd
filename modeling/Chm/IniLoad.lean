/-
Loading an INI configuration.

The lines of the file are collected in one map for the GLOBAL section and one for each node; then
the values are looked up one after the other in an order of the loader's own.
-/
import Chm.YamlLoad

namespace Chm
namespace Conf

/-! ## The raw configuration -/

/-- `strmap_t`. -/
abbrev StrMap := List (CStr × CStr)

/-- The value of a key, if it is there. -/
def StrMap.find (m : StrMap) (key : String) : Option CStr := m.lookup (cstr key)

/-- `CFGRAW`. -/
structure CfgRaw where
  global : StrMap
  serverNodes : List StrMap
  slaveNodes : List StrMap
  deriving DecidableEq, Repr

/-! ## The GLOBAL section -/

/-- The defaults of the GLOBAL section; what has no default here stays as it was. -/
def iniDefaults (env : LoadEnv) (l : Loading) : Loading :=
  let defaults := globalDefaults env l
  { defaults with
    cfg.isServerMode := l.cfg.isServerMode
    cfg.sslMinVer := l.cfg.sslMinVer
    cfg.nssdbDir := l.cfg.nssdbDir }

/-- A value that the GLOBAL section has. -/
def iniRead (env : LoadEnv) (key : GlobalKey) (value : CStr) (l : Loading) : Option Loading :=
  match key with
  -- An empty path is none.
  | .serverCert | .serverPrikey | .slaveCert | .slavePrikey =>
    if value = [] then some l else key.read env value l
  -- `NULL` is no value here.
  | .sslMinVer =>
    match chmCvtSsltlsVer value with
    | none => none
    | some ssver =>
      if ssver ≠ 0 ∧ l.ccv.isSsl = false then none
      else some { l with cfg.sslMinVer := ssver }
  | .nssdbDir =>
    if !env.isDirExist value then none
    else if !l.ccv.isSsl then none
    else if chmMaxPathLen ≤ value.length then none
    else some { l with cfg.nssdbDir := value }
  | key => key.read env value l

/-- The keys that must be in the GLOBAL section. -/
def iniRequired : List String := ["GROUP", "FILEVERSION", "DELIVERMODE"]

/-- The GLOBAL section: the keys are looked up in the order of the table. -/
def iniGlobal (env : LoadEnv) (global : StrMap) (l : Loading) : Option Loading :=
  if iniRequired.all fun key => (global.find key).isSome then
    GlobalKey.table.foldlM (fun l ent =>
      match global.find ent.1 with
      | none => some l
      | some value => iniRead env ent.2 value l) (iniDefaults env l)
  else none

/-! ## The nodes -/

/-- A port of a node, or the one of the GLOBAL section. -/
def iniPort (m : StrMap) (key : String) (port : Int) : Option Int :=
  match m.find key with
  | none => if port = chmInvalidPort then none else some port
  | some value => some (castShort (atoi value))

/-- A value that must be there when the chmpxid is made from it. -/
def iniSeed (m : StrMap) (key : String) (needed : Bool) : Option CStr :=
  match m.find key with
  | none => if needed then none else some []
  | some value => some value

/-- A list of host and port pairs. -/
def iniHostPorts (env : LoadEnv) (m : StrMap) (key : String) (needed : Bool) (port : Int) :
    Option (List HostPortPair) :=
  match m.find key with
  | none => if needed then none else some []
  | some value => cvtHostPortStringToList env value port

/-- `ON` or `OFF`, or the value of the GLOBAL section. -/
def iniBool (m : StrMap) (key : String) (default : Bool) : Option Bool :=
  match m.find key with
  | none => some default
  | some value => boolValue value

/-- `CAPATH` of a node. -/
def iniCapath (env : LoadEnv) (m : StrMap) (ccv : ConfCcv) : Option (Bool × CStr) :=
  match m.find "CAPATH" with
  | none => some (ccv.isCaFile, ccv.capath)
  | some value =>
    if value = [] || isNullStr value then some (false, [])
    else if chmMaxPathLen ≤ value.length then none
    else (capathFile env value).map fun isCaFile => (isCaFile, value)

/-- A certificate or a private key of a node. -/
def iniCert (env : LoadEnv) (m : StrMap) (key : String) (default : CStr) : Option CStr :=
  match m.find key with
  | none => some default
  | some value => if value = [] || isNullStr value then some [] else certValue env value

/-- The certificates of a server go with its switch, and the ones for slaves are there both or
none. -/
def iniServerAccepted (env : LoadEnv) (n : NodeCfgInfo) : Bool :=
  !(!n.isSsl && n.verifyPeer) && n.isSsl ≠ decide (n.serverCert = []) &&
  !(n.isSsl && !env.isCertAllowName && n.serverPrikey = [] || !n.isSsl && n.serverPrikey ≠ []) &&
  !(n.slaveCert ≠ [] && !env.isCertAllowName && n.slavePrikey = [] ||
    n.slaveCert = [] && n.slavePrikey ≠ [])

/-- One map of the server nodes. -/
def iniServer (env : LoadEnv) (l : Loading) (m : StrMap) : Option NodeCfgInfo := do
  let name ← m.find "NAME"
  let port ← iniPort m "PORT" l.ccv.port
  let ctlport ← iniPort m "CTLPORT" l.ccv.ctlport
  let cuk ← iniSeed m "CUK" (l.cfg.chmpxidType = .cuk)
  let endpoints ← iniHostPorts env m "ENDPOINTS" (l.cfg.chmpxidType = .ctlEndpoints) port
  let ctlendpoints ←
    iniHostPorts env m "CTLENDPOINTS" (l.cfg.chmpxidType = .ctlEndpoints) ctlport
  let forwardPeers ← iniHostPorts env m "FORWARD_PEERS" false chmInvalidPort
  let reversePeers ← iniHostPorts env m "REVERSE_PEERS" false chmInvalidPort
  let customSeed ← iniSeed m "CUSTOM_ID_SEED" (l.cfg.chmpxidType = .custom)
  let isSsl ← iniBool m "SSL" l.ccv.isSsl
  let verifyPeer ← iniBool m "SSL_VERIFY_PEER" l.ccv.verifyPeer
  let capath ← iniCapath env m l.ccv
  let serverCert ← iniCert env m "SERVER_CERT" l.ccv.serverCert
  let serverPrikey ← iniCert env m "SERVER_PRIKEY" l.ccv.serverPrikey
  let slaveCert ← iniCert env m "SLAVE_CERT" l.ccv.slaveCert
  let slavePrikey ← iniCert env m "SLAVE_PRIKEY" l.ccv.slavePrikey
  let n : NodeCfgInfo := ⟨name, port, ctlport, isSsl, verifyPeer, capath.1, capath.2, serverCert,
    serverPrikey, slaveCert, slavePrikey, cuk, endpoints, ctlendpoints, forwardPeers,
    reversePeers, customSeed⟩
  if iniServerAccepted env n then some n else none

/-- One name of an expanded server is put behind the list; it stands before the names that are found
for it, and the own one is known by its CUK too. -/
def iniAddServer (env : LoadEnv) (n : NodeCfgInfo) (l : Loading) (host : CStr) : Loading where
  cfg := { l.cfg with
    servers := l.cfg.servers ++ [{ n with name := (nodehostList env [host] host).headD [] }] }
  ccv := { l.ccv with
    serverModeByComp := l.ccv.serverModeByComp ||
      (l.cfg.selfCtlport = n.ctlport && l.cfg.selfCuk = n.cuk) &&
      (nodehostList env [host] host).any fun nodehost => env.localHostList.any (eqNoCase nodehost) }

/-- One map of the server nodes is loaded. -/
def iniServerNode (env : LoadEnv) (l : Loading) (m : StrMap) : Option Loading :=
  match iniServer env l m with
  | none => none
  | some n =>
    match env.expandSimpleRegexHostname n.name with
    | none => none
    | some hosts =>
      let l := { l with
        ccv.foundSsl := l.ccv.foundSsl || n.isSsl
        ccv.foundSslVerifyPeer := l.ccv.foundSslVerifyPeer || n.verifyPeer }
      some (hosts.foldl (iniAddServer env n) l)

/-- The certificates of a server against the ones of all servers. -/
def iniCertAccepted (env : LoadEnv) (ccv : ConfCcv) (n : NodeCfgInfo) : Bool :=
  if !ccv.foundSsl then n.capath = [] && n.slaveCert = [] && n.slavePrikey = []
  else if ccv.foundSslVerifyPeer then certPairAccepted env n.slaveCert n.slavePrikey
  else n.slaveCert = [] && n.slavePrikey = []

/-- The private key of a slave: only one of a certificate that is a file is looked at. -/
def iniSlavePrikey (env : LoadEnv) (m : StrMap) (default : CStr) (isSlaveCertFile : Bool) :
    Option CStr :=
  match m.find "SLAVE_PRIKEY" with
  | none => some default
  | some value =>
    if value = [] || isNullStr value then some []
    else if isSlaveCertFile && !env.isFileSafeExist value then none
    else if chmMaxPathLen ≤ value.length then none
    else some value

/-- One map of the slave nodes. -/
def iniSlave (env : LoadEnv) (l : Loading) (m : StrMap) : Option NodeCfgInfo := do
  let name ← m.find "NAME"
  let ctlport ← iniPort m "CTLPORT" l.ccv.ctlport
  let cuk ← iniSeed m "CUK" (l.cfg.chmpxidType = .cuk)
  let ctlendpoints ←
    iniHostPorts env m "CTLENDPOINTS" (l.cfg.chmpxidType = .ctlEndpoints) ctlport
  let forwardPeers ← iniHostPorts env m "FORWARD_PEERS" false chmInvalidPort
  let reversePeers ← iniHostPorts env m "REVERSE_PEERS" false chmInvalidPort
  let customSeed ← iniSeed m "CUSTOM_ID_SEED" false
  let capath ← iniCapath env m l.ccv
  let slaveCert ← iniCert env m "SLAVE_CERT" l.ccv.slaveCert
  let isSlaveCertFile := slaveCert ≠ [] && env.isFileSafeExistEx slaveCert
  let slavePrikey ← iniSlavePrikey env m l.ccv.slavePrikey isSlaveCertFile
  if (!l.ccv.foundSsl && capath.2 ≠ []) || (isSlaveCertFile && slavePrikey = []) ||
      l.ccv.foundSslVerifyPeer = decide (slaveCert = []) then none
  else
    some ⟨name, chmInvalidPort, ctlport, false, l.ccv.foundSslVerifyPeer, capath.1, capath.2, [],
      [], slaveCert, slavePrikey, cuk, [], ctlendpoints, forwardPeers, reversePeers, customSeed⟩

/-- One map of the slave nodes is loaded. -/
def iniSlaveNode (env : LoadEnv) (l : Loading) (m : StrMap) : Option Loading :=
  (iniSlave env l m).map fun n => { l with cfg.slaves := l.cfg.slaves ++ [n] }

/-! ## The load -/

/-- `CHMIniConf::LoadConfiguration` after the file has been read. -/
def iniLoad (env : LoadEnv) (cfg : CfgInfo) (raw : CfgRaw) : Option CfgInfo :=
  match iniGlobal env raw.global ⟨cfg, .fresh⟩ with
  | none => none
  | some l =>
    if raw.serverNodes = [] then none
    else
      match raw.serverNodes.foldlM (iniServerNode env) l with
      | none => none
      | some l =>
        if l.cfg.servers.all (iniCertAccepted env l.ccv) then
          let l := { l with cfg.servers := sort (unique l.cfg.servers) }
          if raw.slaveNodes = [] then none
          else
            match raw.slaveNodes.foldlM (iniSlaveNode env) l with
            | none => none
            | some l => loadedFinish { l with cfg.slaves := sort (unique l.cfg.slaves) }
        else none

end Conf
end Chm
