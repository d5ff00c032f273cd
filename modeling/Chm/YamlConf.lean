/-
The sections of a YAML or JSON configuration.

Each section loader takes events from the parser until its own mapping or sequence ends, and goes on
from where the loader before it has stopped.  A value is checked and stored when it is read: against
the values that were read before it, not against the ones that come behind.
-/
import Chm.ConfValue
import Chm.NodeLists
import Chm.YamlStack

namespace Chm
namespace Conf

/-! ## Texts and numbers -/

/-- A text of the source. -/
def cstr (s : String) : CStr := s.toList.map Char.toNat

/-- `tolower` of the C locale. -/
def tolower (c : Nat) : Nat := if 65 ≤ c ∧ c ≤ 90 then c + 32 else c

/-- `0 == strcasecmp`. -/
def eqNoCase (a b : CStr) : Bool := a.map tolower == b.map tolower

/-- `strtol` to the base of ten, which stops at the bounds of a `long`. -/
def strtol (s : CStr) : Int :=
  let number (s : CStr) : Int :=
    (s.takeWhile fun c => 48 ≤ c && c ≤ 57).foldl (fun (r : Int) (c : Nat) => r * 10 + (c - 48)) 0
  match s.dropWhile isspace with
  | 45 :: s => max (-number s) (-2 ^ 63)
  | 43 :: s => min (number s) (2 ^ 63 - 1)
  | s => min (number s) (2 ^ 63 - 1)

/-- `atoi`. -/
def atoi (s : CStr) : Int := Int.bmod (strtol s) (2 ^ 32)

/-- `static_cast<short>`. -/
def castShort (n : Int) : Int := Int.bmod n (2 ^ 16)

/-- `CHM_MAX_PATH_LEN`. -/
def chmMaxPathLen : Nat := 1024

/-- What the loader asks for outside of the configuration, and the parameters of the command
line. -/
structure LoadEnv where
  defaultCtlport : Int
  defaultCuk : CStr
  trim : CStr → CStr
  rfcdateTime : CStr → Int
  isDirExist : CStr → Bool
  isFileSafeExist : CStr → Bool
  isFileSafeExistEx : CStr → Bool
  isCAPathAllowFile : Bool
  isCertAllowName : Bool
  parseHostPortString : CStr → Int → Option (CStr × Int)
  expandSimpleRegexHostname : CStr → Option (List CStr)
  getAllHostList : CStr → List CStr → Option (List CStr)
  localHostList : List CStr
  defaultMaskBitcount : Int
  defaultCollisionMaskBitcount : Int
  defaultMaxElementCnt : Int

/-- `CHMCONF_CCV`. -/
structure ConfCcv where
  port : Int
  ctlport : Int
  serverMode : Bool
  isSsl : Bool
  verifyPeer : Bool
  isCaFile : Bool
  capath : CStr
  serverCert : CStr
  serverPrikey : CStr
  slaveCert : CStr
  slavePrikey : CStr
  serverModeByComp : Bool
  foundSsl : Bool
  foundSslVerifyPeer : Bool
  deriving DecidableEq, Repr

/-- The values that are carried from section to section, before the first one. -/
def ConfCcv.fresh : ConfCcv where
  port := chmInvalidPort
  ctlport := chmInvalidPort
  serverMode := false
  isSsl := false
  verifyPeer := false
  isCaFile := false
  capath := []
  serverCert := []
  serverPrikey := []
  slaveCert := []
  slavePrikey := []
  serverModeByComp := false
  foundSsl := false
  foundSslVerifyPeer := false

/-- What is loaded so far. -/
structure Loading where
  cfg : CfgInfo
  ccv : ConfCcv
  deriving DecidableEq, Repr

/-! ## Values -/

/-- `ON`, `YES`, `OFF` and `NO`. -/
def boolValue (value : CStr) : Option Bool :=
  if eqNoCase value (cstr "ON") || eqNoCase value (cstr "YES") then some true
  else if eqNoCase value (cstr "OFF") || eqNoCase value (cstr "NO") then some false
  else none

/-- `NULL`. -/
def isNullStr (value : CStr) : Bool := eqNoCase (cstr "NULL") value

/-- A number with an upper limit. -/
def limited (limit : Int) (value : CStr) : Int :=
  if limit < atoi value then limit else atoi value

/-- A number of seconds that is not negative. -/
def timeoutValue (value : CStr) : Int := if atoi value < 0 then 0 else atoi value

/-- A number that is wrong below a bound. -/
def atLeast (bound : Int) (value : CStr) : Option Int :=
  if atoi value < bound then none else some (atoi value)

/-- `ChmCvtSSLTLS_VER`. -/
def chmCvtSsltlsVer (poption : CStr) : Option Int :=
  if poption = [] then some 0
  else
    (([("DEFAULT", 0), ("SSLV2", 1), ("SSLV3", 2), ("TLSV1.0", 3), ("TLSV1.1", 4), ("TLSV1.2", 5),
      ("TLSV1.3", 6)] : List (String × Int)).find?
        fun ent => eqNoCase poption (cstr ent.1)).map (·.2)

/-- `CvtChmpxidType`. -/
def cvtChmpxidType (strtype : CStr) : Option ChmpxIdSeedType :=
  if strtype = [] then none
  else
    (([("NAME", .name), ("CUK", .cuk), ("CTLENDPOINTS", .ctlEndpoints), ("CTLEPS", .ctlEndpoints),
      ("CUSTOM", .custom)] : List (String × ChmpxIdSeedType)).find?
        fun ent => eqNoCase strtype (cstr ent.1)).map (·.2)

/-- `CvtHostPortStringToList`. -/
def cvtHostPortStringToList (env : LoadEnv) (target : CStr) (defaultPort : Int) :
    Option (List HostPortPair) :=
  if target = [] then some []
  else
    match strSplit env.trim target 44 true with
    | (false, _) => none
    | (true, hostports) => some (hostports.filterMap fun one =>
        match env.parseHostPortString one defaultPort with
        | none => none
        | some (host, port) => if host = [] then none else some ⟨host, port⟩)

/-- The directory or file of `CAPATH`: whether it is a file. -/
def capathFile (env : LoadEnv) (value : CStr) : Option Bool :=
  if env.isDirExist value then some false
  else if env.isCAPathAllowFile && env.isFileSafeExist value then some true
  else none

/-- A certificate or a private key: it is short enough, and a safe file or allowed as a name. -/
def certValue (env : LoadEnv) (value : CStr) : Option CStr :=
  if chmMaxPathLen ≤ value.length then none
  else if !env.isCertAllowName && !env.isFileSafeExist value then none
  else some value

/-! ## The GLOBAL section -/

/-- The keys of the GLOBAL section. -/
inductive GlobalKey
  | group | version | mode | chmpxidType | deliverMode | maxChmpx | replica | maxMqServer
  | maxMqClient | mqPerAttach | maxQPerServerMq | maxQPerClientMq | maxMqPerClient | maxHistlog
  | date | port | ctlport | selfCtlport | selfCuk | retryCnt | mqRetryCnt | mqAck | rwTimeout
  | conTimeout | mqRwTimeout | autoMerge | doMerge | mergeTimeout | sockThreadCnt | mqThreadCnt
  | maxSockPool | sockPoolTimeout | ssl | sslVerifyPeer | capath | serverCert | serverPrikey
  | slaveCert | slavePrikey | sslMinVer | nssdbDir | k2hFullmap | k2hMaskBit | k2hCmaskBit
  | k2hMaxEle
  deriving DecidableEq, Repr

namespace GlobalKey

/-- The texts of the keys, in the order in which they are compared. -/
def table : List (String × GlobalKey) :=
  [("GROUP", group), ("FILEVERSION", version), ("MODE", mode), ("CHMPXIDTYPE", chmpxidType),
    ("DELIVERMODE", deliverMode), ("MAXCHMPX", maxChmpx), ("REPLICA", replica),
    ("MAXMQSERVER", maxMqServer), ("MAXMQCLIENT", maxMqClient), ("MQPERATTACH", mqPerAttach),
    ("MAXQPERSERVERMQ", maxQPerServerMq), ("MAXQPERCLIENTMQ", maxQPerClientMq),
    ("MAXMQPERCLIENT", maxMqPerClient), ("MAXHISTLOG", maxHistlog), ("DATE", date), ("PORT", port),
    ("CTLPORT", ctlport), ("SELFCTLPORT", selfCtlport), ("SELFCUK", selfCuk),
    ("RETRYCNT", retryCnt), ("MQRETRYCNT", mqRetryCnt), ("MQACK", mqAck), ("RWTIMEOUT", rwTimeout),
    ("CONTIMEOUT", conTimeout), ("MQRWTIMEOUT", mqRwTimeout), ("AUTOMERGE", autoMerge),
    ("DOMERGE", doMerge), ("MERGETIMEOUT", mergeTimeout), ("SOCKTHREADCNT", sockThreadCnt),
    ("MQTHREADCNT", mqThreadCnt), ("MAXSOCKPOOL", maxSockPool),
    ("SOCKPOOLTIMEOUT", sockPoolTimeout), ("SSL", ssl), ("SSL_VERIFY_PEER", sslVerifyPeer),
    ("CAPATH", capath), ("SERVER_CERT", serverCert), ("SERVER_PRIKEY", serverPrikey),
    ("SLAVE_CERT", slaveCert), ("SLAVE_PRIKEY", slavePrikey), ("SSL_MIN_VER", sslMinVer),
    ("NSSDB_DIR", nssdbDir), ("K2HFULLMAP", k2hFullmap), ("K2HMASKBIT", k2hMaskBit),
    ("K2HCMASKBIT", k2hCmaskBit), ("K2HMAXELE", k2hMaxEle)]

def ofText (key : CStr) : Option GlobalKey :=
  (table.find? fun ent => eqNoCase (cstr ent.1) key).map (·.2)

/-- The value of a key, or nothing when it is wrong. -/
def read (env : LoadEnv) (key : GlobalKey) (value : CStr) (l : Loading) : Option Loading :=
  match key with
  | group => some { l with cfg.groupname := value }
  | version => some { l with cfg.revision := atoi value }
  | mode =>
    if eqNoCase value (cstr "server") then
      some { l with cfg.isServerMode := true, ccv.serverMode := true }
    else if eqNoCase value (cstr "slave") then
      some { l with cfg.isServerMode := false, ccv.serverMode := true }
    else none
  | chmpxidType => (cvtChmpxidType value).map fun type => { l with cfg.chmpxidType := type }
  | deliverMode =>
    if eqNoCase value (cstr "random") then some { l with cfg.isRandomMode := true }
    else if eqNoCase value (cstr "hash") then some { l with cfg.isRandomMode := false }
    else none
  | maxChmpx => some { l with cfg.maxChmpxCount := limited (1024 * 32) value }
  | replica =>
    -- The delivery mode and the maximum are the ones read so far.
    if l.cfg.isRandomMode then some { l with cfg.replicaCount := 0 }
    else some { l with cfg.replicaCount := limited l.cfg.maxChmpxCount value }
  | maxMqServer => some { l with cfg.maxServerMqCnt := limited 128 value }
  | maxMqClient => some { l with cfg.maxClientMqCnt := limited (32768 - 128) value }
  | mqPerAttach => some { l with cfg.mqcntPerAttach := limited 128 value }
  | maxQPerServerMq => some { l with cfg.maxQPerServermq := limited 128 value }
  | maxQPerClientMq => some { l with cfg.maxQPerClientmq := limited 128 value }
  | maxMqPerClient => some { l with cfg.maxMqPerClient := limited 128 value }
  | maxHistlog => some { l with cfg.maxHistlogCount := limited 32768 value }
  | date => some { l with cfg.date := env.rfcdateTime value }
  | port => some { l with ccv.port := castShort (atoi value) }
  | ctlport => some { l with ccv.ctlport := castShort (atoi value) }
  | selfCtlport =>
    if env.defaultCtlport = chmInvalidPort then
      some { l with cfg.selfCtlport := castShort (atoi value) }
    else some l
  | selfCuk => if env.defaultCuk = [] then some { l with cfg.selfCuk := value } else some l
  | retryCnt => some { l with cfg.retrycnt := atoi value }
  | mqRetryCnt => some { l with cfg.mqRetrycnt := atoi value }
  | mqAck => (boolValue value).map fun b => { l with cfg.mqAck := b }
  | rwTimeout => some { l with cfg.timeoutWaitSocket := timeoutValue value }
  | conTimeout => some { l with cfg.timeoutWaitConnect := timeoutValue value }
  | mqRwTimeout => some { l with cfg.timeoutWaitMq := timeoutValue value }
  | autoMerge => (boolValue value).map fun b => { l with cfg.isAutoMerge := b }
  | doMerge => (boolValue value).map fun b => { l with cfg.isDoMerge := b }
  | mergeTimeout => some { l with cfg.timeoutMerge := timeoutValue value }
  | sockThreadCnt => (atLeast 0 value).map fun n => { l with cfg.sockThreadCnt := n }
  | mqThreadCnt => (atLeast 0 value).map fun n => { l with cfg.mqThreadCnt := n }
  | maxSockPool => (atLeast 1 value).map fun n => { l with cfg.maxSockPool := n }
  | sockPoolTimeout => (atLeast 0 value).map fun n => { l with cfg.sockPoolTimeout := n }
  | ssl => (boolValue value).map fun b => { l with ccv.isSsl := b }
  | sslVerifyPeer =>
    match boolValue value with
    | none => none
    | some true => if !l.ccv.isSsl then none else some { l with ccv.verifyPeer := true }
    | some false => some { l with ccv.verifyPeer := false }
  | capath =>
    if value = [] || isNullStr value then some l
    else
      match capathFile env value with
      | none => none
      | some isCaFile =>
        if chmMaxPathLen ≤ value.length then none
        else some { l with ccv.isCaFile := isCaFile, ccv.capath := value }
  | serverCert =>
    if isNullStr value then some l
    else if !l.ccv.isSsl then none
    else (certValue env value).map fun cert => { l with ccv.serverCert := cert }
  | serverPrikey =>
    if isNullStr value then some l
    else if !l.ccv.isSsl then none
    else (certValue env value).map fun cert => { l with ccv.serverPrikey := cert }
  | slaveCert =>
    if isNullStr value then some l
    else (certValue env value).map fun cert => { l with ccv.slaveCert := cert }
  | slavePrikey =>
    if isNullStr value then some l
    else (certValue env value).map fun cert => { l with ccv.slavePrikey := cert }
  | sslMinVer =>
    if isNullStr value then some l
    else
      match chmCvtSsltlsVer value with
      | none => none
      | some ssver =>
        if ssver ≠ 0 ∧ l.ccv.isSsl = false then none
        else some { l with cfg.sslMinVer := ssver }
  | nssdbDir =>
    if isNullStr value then some l
    else if chmMaxPathLen ≤ value.length then none
    else if !env.isDirExist value then none
    else if !l.ccv.isSsl then none
    else some { l with cfg.nssdbDir := value }
  | k2hFullmap => (boolValue value).map fun b => { l with cfg.k2hFullmap := b }
  | k2hMaskBit => some { l with cfg.k2hMaskBitcnt := atoi value }
  | k2hCmaskBit => some { l with cfg.k2hCmaskBitcnt := atoi value }
  | k2hMaxEle => some { l with cfg.k2hMaxElement := atoi value }

end GlobalKey

/-- A key with its value in the GLOBAL section; an unknown key is passed over. -/
def globalEntry (env : LoadEnv) (key value : CStr) (l : Loading) : Option Loading :=
  match GlobalKey.ofText key with
  | some key => key.read env value l
  | none => some l

/-- The defaults of the GLOBAL section. -/
def globalDefaults (env : LoadEnv) (l : Loading) : Loading where
  cfg := { l.cfg with
    groupname := []
    revision := -1
    isServerMode := false
    isRandomMode := false
    maxChmpxCount := 1024
    replicaCount := 0
    maxServerMqCnt := 1
    maxClientMqCnt := 8192
    mqcntPerAttach := 1
    maxQPerServermq := 8
    maxQPerClientmq := 1
    maxMqPerClient := 1
    maxHistlogCount := 8192
    date := 0
    selfCtlport := env.defaultCtlport
    selfCuk := env.defaultCuk
    chmpxidType := .name
    retrycnt := -1
    mqRetrycnt := 3
    mqAck := true
    timeoutWaitSocket := 0
    timeoutWaitConnect := 0
    timeoutWaitMq := 0
    isAutoMerge := false
    isDoMerge := false
    timeoutMerge := 0
    sockThreadCnt := 0
    mqThreadCnt := 0
    maxSockPool := 1
    sockPoolTimeout := 60
    k2hFullmap := true
    k2hMaskBitcnt := env.defaultMaskBitcount
    k2hCmaskBitcnt := env.defaultCollisionMaskBitcount
    k2hMaxElement := env.defaultMaxElementCnt
    sslMinVer := 0
    nssdbDir := [] }
  ccv := { l.ccv with
    port := chmInvalidPort
    ctlport := chmInvalidPort
    serverMode := false
    isSsl := false
    verifyPeer := false
    isCaFile := false
    capath := []
    serverCert := []
    serverPrikey := []
    slaveCert := []
    slavePrikey := [] }

/-- The checks at the end of the GLOBAL section. -/
def globalAccepted (l : Loading) : Bool :=
  l.cfg.groupname ≠ [] && l.cfg.revision ≠ -1 &&
    !(l.cfg.chmpxidType = .cuk && l.cfg.selfCuk = [])

/-- The loop of `ChmYamlLoadConfigurationGlobalSec`; the events behind the section are left. -/
def globalLoop (env : LoadEnv) (key : CStr) (l : Loading) :
    List YamlEvent → Option (Loading × List YamlEvent)
  | .mappingEnd :: events => if globalAccepted l then some (l, events) else none
  | .scalar value :: events =>
    if key = [] then globalLoop env value l events
    else
      match globalEntry env key value l with
      | none => none
      | some l => globalLoop env [] l events
  | _ => none

/-- `ChmYamlLoadConfigurationGlobalSec`. -/
def globalSec (env : LoadEnv) (l : Loading) : List YamlEvent → Option (Loading × List YamlEvent)
  | .mappingStart :: events => globalLoop env [] (globalDefaults env l) events
  | _ => none

/-! ## The node sections -/

/-- The keys of a node. -/
inductive NodeKey
  | name | port | ctlport | cuk | endpoints | ctlendpoints | forwardPeers | reversePeers
  | customIdSeed | ssl | sslVerifyPeer | capath | serverCert | serverPrikey | slaveCert
  | slavePrikey
  deriving DecidableEq, Repr

namespace NodeKey

/-- The texts of the keys of a server, in the order in which they are compared. -/
def svrTable : List (String × NodeKey) :=
  [("NAME", name), ("PORT", port), ("CTLPORT", ctlport), ("CUK", cuk), ("ENDPOINTS", endpoints),
    ("CTLENDPOINTS", ctlendpoints), ("FORWARD_PEERS", forwardPeers),
    ("REVERSE_PEERS", reversePeers), ("CUSTOM_ID_SEED", customIdSeed), ("SSL", ssl),
    ("SSL_VERIFY_PEER", sslVerifyPeer), ("CAPATH", capath), ("SERVER_CERT", serverCert),
    ("SERVER_PRIKEY", serverPrikey), ("SLAVE_CERT", slaveCert), ("SLAVE_PRIKEY", slavePrikey)]

/-- The texts of the keys of a slave. -/
def slvTable : List (String × NodeKey) :=
  [("NAME", name), ("CTLPORT", ctlport), ("CUK", cuk), ("CTLENDPOINTS", ctlendpoints),
    ("FORWARD_PEERS", forwardPeers), ("REVERSE_PEERS", reversePeers),
    ("CUSTOM_ID_SEED", customIdSeed), ("CAPATH", capath), ("SLAVE_CERT", slaveCert),
    ("SLAVE_PRIKEY", slavePrikey)]

def ofText (table : List (String × NodeKey)) (key : CStr) : Option NodeKey :=
  (table.find? fun ent => eqNoCase (cstr ent.1) key).map (·.2)

/-- A certificate or a private key of a node. -/
def cert (env : LoadEnv) (value : CStr) : Option CStr :=
  if isNullStr value then some [] else certValue env value

/-- The value of a key, or nothing when it is wrong. -/
def read (env : LoadEnv) (key : NodeKey) (value : CStr) (n : NodeCfgInfo) : Option NodeCfgInfo :=
  match key with
  | name => some { n with name := value }
  | port => some { n with port := castShort (atoi value) }
  | ctlport => some { n with ctlport := castShort (atoi value) }
  | cuk => some { n with cuk := value }
  -- The port of a pair without one is filled in at the end of the node.
  | endpoints =>
    (cvtHostPortStringToList env value chmInvalidPort).map fun l => { n with endpoints := l }
  | ctlendpoints =>
    (cvtHostPortStringToList env value chmInvalidPort).map fun l => { n with ctlendpoints := l }
  | forwardPeers =>
    (cvtHostPortStringToList env value chmInvalidPort).map fun l => { n with forwardPeers := l }
  | reversePeers =>
    (cvtHostPortStringToList env value chmInvalidPort).map fun l => { n with reversePeers := l }
  | customIdSeed => some { n with customSeed := value }
  | ssl => (boolValue value).map fun b => { n with isSsl := b }
  | sslVerifyPeer => (boolValue value).map fun b => { n with verifyPeer := b }
  | capath =>
    if isNullStr value then some { n with isCaFile := false, capath := [] }
    else
      match capathFile env value with
      | none => none
      | some isCaFile =>
        if chmMaxPathLen ≤ value.length then none
        else some { n with isCaFile := isCaFile, capath := value }
  | serverCert => (cert env value).map fun c => { n with serverCert := c }
  | serverPrikey => (cert env value).map fun c => { n with serverPrikey := c }
  | slaveCert => (cert env value).map fun c => { n with slaveCert := c }
  | slavePrikey => (cert env value).map fun c => { n with slavePrikey := c }

end NodeKey

/-- A key with its value in a node; an unknown key is passed over. -/
def nodeEntry (env : LoadEnv) (table : List (String × NodeKey)) (key value : CStr)
    (n : NodeCfgInfo) : Option NodeCfgInfo :=
  match NodeKey.ofText table key with
  | some key => key.read env value n
  | none => some n

/-- The pairs without a port get the one of the node. -/
def fillPorts (port : Int) (hostports : List HostPortPair) : List HostPortPair :=
  hostports.map fun hp => if hp.port = chmInvalidPort then { hp with port := port } else hp

/-- The defaults of a server. -/
def svrnodeDefaults (ccv : ConfCcv) : NodeCfgInfo where
  name := []
  port := ccv.port
  ctlport := ccv.ctlport
  isSsl := ccv.isSsl
  verifyPeer := ccv.verifyPeer
  isCaFile := ccv.isCaFile
  capath := ccv.capath
  serverCert := ccv.serverCert
  serverPrikey := ccv.serverPrikey
  slaveCert := ccv.slaveCert
  slavePrikey := ccv.slavePrikey
  cuk := []
  endpoints := []
  ctlendpoints := []
  forwardPeers := []
  reversePeers := []
  customSeed := []

/-- A certificate that is a file needs a private key that is a safe file. -/
def certPairAccepted (env : LoadEnv) (cert prikey : CStr) : Bool :=
  if env.isFileSafeExistEx cert then env.isFileSafeExist prikey else env.isCertAllowName

/-- The checks at the end of a server. -/
def svrnodeAccepted (env : LoadEnv) (type : ChmpxIdSeedType) (n : NodeCfgInfo) : Bool :=
  n.name ≠ [] && n.port ≠ chmInvalidPort && n.ctlport ≠ chmInvalidPort &&
  !(type = .cuk && n.cuk = []) && !(type = .ctlEndpoints && n.ctlendpoints = []) &&
  (if type = .custom then n.customSeed ≠ [] else n.customSeed = []) &&
  !(!n.isSsl && n.verifyPeer) && n.isSsl ≠ decide (n.serverCert = []) &&
  !(!n.isSsl && n.serverPrikey ≠ []) &&
  (!n.isSsl || certPairAccepted env n.serverCert n.serverPrikey) &&
  (if n.verifyPeer then n.slaveCert ≠ [] && certPairAccepted env n.slaveCert n.slavePrikey
    else n.slaveCert = [] && n.slavePrikey = [])

/-- The names of a host behind the ones of a list, or the host itself when there are none. -/
def nodehostList (env : LoadEnv) (nodehosts : List CStr) (host : CStr) : List CStr :=
  (env.getAllHostList host nodehosts).getD (nodehosts ++ [host])

/-- One name of an expanded server is put behind the list. -/
def addServer (env : LoadEnv) (n : NodeCfgInfo) (l : Loading) (host : CStr) : Loading where
  cfg := { l.cfg with
    servers := l.cfg.servers ++ [{ n with name := (nodehostList env [] host).headD [] }] }
  ccv := { l.ccv with
    serverModeByComp := l.ccv.serverModeByComp || l.cfg.selfCtlport = n.ctlport &&
      (nodehostList env [] host).any fun nodehost => env.localHostList.any (eqNoCase nodehost) }

/-- The end of a server. -/
def svrnodeStop (env : LoadEnv) (n : NodeCfgInfo) (l : Loading) : Option Loading :=
  let l := { l with
    ccv.foundSsl := l.ccv.foundSsl || n.isSsl
    ccv.foundSslVerifyPeer := l.ccv.foundSslVerifyPeer || n.verifyPeer }
  if svrnodeAccepted env l.cfg.chmpxidType n then
    match env.expandSimpleRegexHostname n.name with
    | none => none
    | some hosts =>
      let n := { n with
        endpoints := fillPorts n.port n.endpoints
        ctlendpoints := fillPorts n.ctlport n.ctlendpoints }
      some (hosts.foldl (addServer env n) l)
  else none

/-- The defaults of a slave. -/
def slvnodeDefaults (ccv : ConfCcv) : NodeCfgInfo where
  name := []
  port := chmInvalidPort
  ctlport := ccv.ctlport
  isSsl := false
  verifyPeer := ccv.foundSslVerifyPeer
  isCaFile := ccv.isCaFile
  capath := ccv.capath
  serverCert := []
  serverPrikey := []
  slaveCert := ccv.slaveCert
  slavePrikey := ccv.slavePrikey
  cuk := []
  endpoints := []
  ctlendpoints := []
  forwardPeers := []
  reversePeers := []
  customSeed := []

/-- The certificate and the private key that go with a peer that is verified. -/
def slaveCertAccepted (env : LoadEnv) (n : NodeCfgInfo) : Bool :=
  if !env.isCertAllowName then
    n.slaveCert ≠ [] && n.slavePrikey ≠ [] && env.isFileSafeExist n.slaveCert &&
      env.isFileSafeExist n.slavePrikey
  else
    n.slaveCert ≠ []

/-- The checks at the end of a slave. -/
def slvnodeAccepted (env : LoadEnv) (type : ChmpxIdSeedType) (ccv : ConfCcv) (n : NodeCfgInfo) :
    Bool :=
  n.name ≠ [] && !(type = .cuk && n.cuk = []) && !(type = .ctlEndpoints && n.ctlendpoints = []) &&
  (type = .custom || n.customSeed = []) && !(!ccv.foundSsl && n.capath ≠ []) &&
  (if ccv.foundSslVerifyPeer then slaveCertAccepted env n
    else n.slaveCert = [] && n.slavePrikey = [])

/-- The end of a slave. -/
def slvnodeStop (env : LoadEnv) (n : NodeCfgInfo) (l : Loading) : Option Loading :=
  if slvnodeAccepted env l.cfg.chmpxidType l.ccv n then
    some { l with cfg.slaves := l.cfg.slaves ++
      [{ n with ctlendpoints := fillPorts n.ctlport n.ctlendpoints }] }
  else none

/-- The loop over the nodes of a section; the events behind the section are left.  A key and a node
that have been read stay at hand from one node to the next. -/
def nodesLoop (env : LoadEnv) (table : List (String × NodeKey)) (defaults : ConfCcv → NodeCfgInfo)
    (stop : NodeCfgInfo → Loading → Option Loading) (inMapping : Bool) (key : CStr)
    (n : NodeCfgInfo) (l : Loading) : List YamlEvent → Option (Loading × List YamlEvent)
  | .mappingStart :: events =>
    if inMapping then none else nodesLoop env table defaults stop true key (defaults l.ccv) l events
  | .mappingEnd :: events =>
    if inMapping then
      match stop n l with
      | none => none
      | some l => nodesLoop env table defaults stop false key n l events
    else none
  | .sequenceEnd :: events => if inMapping then none else some (l, events)
  | .scalar value :: events =>
    if key = [] then nodesLoop env table defaults stop inMapping value n l events
    else
      match nodeEntry env table key value n with
      | none => none
      | some n => nodesLoop env table defaults stop inMapping [] n l events
  | _ => none

/-- `CHMNODE_CFGINFO` as it is constructed. -/
def NodeCfgInfo.fresh : NodeCfgInfo where
  name := []
  port := 0
  ctlport := 0
  isSsl := false
  verifyPeer := false
  isCaFile := false
  capath := []
  serverCert := []
  serverPrikey := []
  slaveCert := []
  slavePrikey := []
  cuk := []
  endpoints := []
  ctlendpoints := []
  forwardPeers := []
  reversePeers := []
  customSeed := []

/-- A server has the certificate for slaves when some server verifies its peers, and has none
otherwise. -/
def serverCertAccepted (env : LoadEnv) (ccv : ConfCcv) (n : NodeCfgInfo) : Bool :=
  if !ccv.foundSsl then n.capath = [] && n.slaveCert = [] && n.slavePrikey = []
  else if ccv.foundSslVerifyPeer then
    slaveCertAccepted env n &&
      (!env.isCertAllowName || !env.isFileSafeExistEx n.slaveCert ||
        env.isFileSafeExist n.slavePrikey)
  else n.slaveCert = [] && n.slavePrikey = []

/-- `ChmYamlLoadConfigurationSvrnodeSec`. -/
def svrnodeSec (env : LoadEnv) (l : Loading) : List YamlEvent → Option (Loading × List YamlEvent)
  | .sequenceStart :: events =>
    let l := { l with
      cfg.servers := []
      ccv.serverModeByComp := false
      ccv.foundSsl := false
      ccv.foundSslVerifyPeer := false }
    match nodesLoop env NodeKey.svrTable svrnodeDefaults (svrnodeStop env) false [] .fresh l
        events with
    | none => none
    | some (l, events) =>
      if l.cfg.servers.all (serverCertAccepted env l.ccv) then
        some ({ l with cfg.servers := sort (unique l.cfg.servers) }, events)
      else none
  | _ => none

/-- `ChmYamlLoadConfigurationSlvnodeSec`. -/
def slvnodeSec (env : LoadEnv) (l : Loading) : List YamlEvent → Option (Loading × List YamlEvent)
  | .sequenceStart :: events =>
    let l := { l with cfg.slaves := [] }
    match nodesLoop env NodeKey.slvTable slvnodeDefaults (slvnodeStop env) false [] .fresh l
        events with
    | none => none
    | some (l, events) => some ({ l with cfg.slaves := sort (unique l.cfg.slaves) }, events)
  | _ => none

section Accepted

variable {env : LoadEnv} {l l' : Loading} {n : NodeCfgInfo} {events rest : List YamlEvent}

/-- What a server that is accepted adds. -/
theorem svrnodeStop_some (h : svrnodeStop env n l = some l') :
    ∃ hosts, env.expandSimpleRegexHostname n.name = some hosts ∧
      l' = hosts.foldl
        (addServer env { n with
          endpoints := fillPorts n.port n.endpoints
          ctlendpoints := fillPorts n.ctlport n.ctlendpoints })
        { l with
          ccv.foundSsl := l.ccv.foundSsl || n.isSsl
          ccv.foundSslVerifyPeer := l.ccv.foundSslVerifyPeer || n.verifyPeer } := by
  rw [svrnodeStop] at h
  dsimp only at h
  split at h
  · cases hexpand : env.expandSimpleRegexHostname n.name with
    | none =>
      rw [hexpand] at h
      cases h
    | some hosts =>
      rw [hexpand] at h
      exact ⟨hosts, rfl, (Option.some.inj h).symm⟩
  · cases h

/-- What a slave that is accepted adds. -/
theorem slvnodeStop_some (h : slvnodeStop env n l = some l') :
    l' = { l with cfg.slaves := l.cfg.slaves ++
      [{ n with ctlendpoints := fillPorts n.ctlport n.ctlendpoints }] } := by
  rw [slvnodeStop] at h
  split at h
  · exact (Option.some.inj h).symm
  · cases h

/-- What a section of servers that is accepted has read. -/
theorem svrnodeSec_some (h : svrnodeSec env l events = some (l', rest)) :
    ∃ items l₁, events = .sequenceStart :: items ∧
      nodesLoop env NodeKey.svrTable svrnodeDefaults (svrnodeStop env) false [] .fresh
        { l with
          cfg.servers := []
          ccv.serverModeByComp := false
          ccv.foundSsl := false
          ccv.foundSslVerifyPeer := false } items = some (l₁, rest) ∧
      l' = { l₁ with cfg.servers := sort (unique l₁.cfg.servers) } := by
  rw [svrnodeSec.eq_def] at h
  split at h
  · dsimp only at h
    split at h
    · cases h
    · rename_i items _ l₁ rest₁ hloop
      split at h
      · cases h
        exact ⟨items, l₁, rfl, hloop, rfl⟩
      · cases h
  · cases h

/-- What a section of slaves that is accepted has read. -/
theorem slvnodeSec_some (h : slvnodeSec env l events = some (l', rest)) :
    ∃ items l₁, events = .sequenceStart :: items ∧
      nodesLoop env NodeKey.slvTable slvnodeDefaults (slvnodeStop env) false [] .fresh
        { l with cfg.slaves := [] } items = some (l₁, rest) ∧
      l' = { l₁ with cfg.slaves := sort (unique l₁.cfg.slaves) } := by
  rw [slvnodeSec.eq_def] at h
  split at h
  · dsimp only at h
    split at h
    · cases h
    · rename_i items _ l₁ rest₁ hloop
      cases h
      exact ⟨items, l₁, rfl, hloop, rfl⟩
  · cases h

end Accepted

end Conf
end Chm
