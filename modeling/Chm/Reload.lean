/-
`chmpxman_lap::ReloadConfiguration`: the server list after the configuration has
changed.

A configured server that matches no server of the list gets a new node, and a server
that is down and out of service leaves the list when no configured server matches it.
`chmpx_count` is the size of the area here and stays: the source overwrites the member
and never reads it.
-/
import Chm.Initialize

namespace Chm

namespace ChmpxMan

/-- A configured server is the one in the list: the host name and every other
parameter. -/
def matchesParam (env : Env) (c : Chmpx) (par : ChmpxParam) : Bool :=
  env.isInHostnameList par.hostname c.name && par.ctlport = c.ctlport && par.cuk = c.cuk &&
    par.customSeed = c.customSeed && compareHostportPairs par.endpoints c.endpoints &&
    compareHostportPairs par.ctlendpoints c.ctlendpoints &&
    compareHostportPairs par.forwardPeers c.forwardPeers &&
    compareHostportPairs par.reversePeers c.reversePeers

/-- The search of the list for a configured server. -/
def isListed (env : Env) (par : ChmpxParam) (m : ChmpxMan) : Bool :=
  (m.nodes m.chmpxServers).any fun p => matchesParam env (m.chmpx p) par

/-- The first phase of `UpdateChmpxSvrs` for one configured server.  The node comes
from the free list of the cursor, which may have run dry. -/
def updateChmpxSvr (env : Env) (cfg : ChmCfgInfo) (par : ChmpxParam) (frees : Cursor)
    (m : ChmpxMan) : Cursor × ChmpxMan :=
  if m.isListed env par then (frees, m)
  else
    let (p, frees, m) := m.popFront frees
    let m := m.initializeAt env cfg.chmpxidType cfg.groupname .server par p
    let (_, m) := insertServer cfg.chmpxidType p m.chmpxServers m
    let free := m.getFirstPtr frees
    (free, m.setFrees (m.chmpxFreeCount - 1) free)

def updateChmpxSvrLoop (env : Env) (cfg : ChmCfgInfo) : List ChmpxParam → Cursor → ChmpxMan →
    Cursor × ChmpxMan
  | [], frees, m => (frees, m)
  | par :: pars, frees, m =>
    let (frees, m) := updateChmpxSvr env cfg par frees m
    updateChmpxSvrLoop env cfg pars frees m

/-- The second phase leaves a server: this node's own, one in service or up, or one
that the configuration has. -/
def staysListed (env : Env) (cfg : ChmCfgInfo) (selfchmpxid : ChmpxId) (c : Chmpx) : Bool :=
  c.chmpxid = selfchmpxid || !c.status.isDown || !c.status.isSrvout || !c.status.isNoact ||
    cfg.servers.any (matchesParam env c)

/-- The second phase of `UpdateChmpxSvrs` from a cursor on; `topoflist` says that every
node before it has been removed.  A null cursor reads as the status of a slave, or as
the invalid chmpxid of no node, and ends the loop. -/
def updateRemoveLoop (env : Env) (cfg : ChmCfgInfo) (eqfd : Bool) (selfchmpxid : ChmpxId) :
    Nat → Cursor → Bool → ChmpxMan → ChmpxMan
  | 0, _, _, m => m
  | _ + 1, none, _, m => m
  | fuel + 1, some p, topoflist, m =>
    if staysListed env cfg selfchmpxid (m.chmpx p) then
      match m.toNext p with
      | none => m
      | some q => updateRemoveLoop env cfg eqfd selfchmpxid fuel (some q) false m
    else
      let (cur, m) := m.retrieve p
      let m := m.giveBack eqfd p
      let m := if topoflist then m.setServers m.chmpxServerCount cur else m
      updateRemoveLoop env cfg eqfd selfchmpxid fuel cur topoflist
        (m.setServers (m.chmpxServerCount - 1) m.chmpxServers)

/-- `UpdateChmpxSvrs`. -/
def updateChmpxSvrs (env : Env) (cfg : ChmCfgInfo) (eqfd : Bool) (m : ChmpxMan) : Bool × ChmpxMan :=
  if maxGroupLength ≤ cfg.groupname.length ∨ maxChmpxCount < cfg.maxChmpxCount then (false, m)
  else
    let (_, m) := updateChmpxSvrLoop env cfg cfg.servers m.chmpxFrees m
    (true, updateRemoveLoop env cfg eqfd m.keptChmpxId (m.chmpxCount + 2)
      (m.getFirstPtr m.chmpxServers) true m)

/-- `ReloadConfiguration`. -/
def reloadConfiguration (env : Env) (cfg : ChmCfgInfo) (eqfd : Bool) (m : ChmpxMan) :
    Bool × ChmpxMan :=
  if maxGroupLength ≤ cfg.groupname.length ∨ maxChmpxCount < cfg.maxChmpxCount then (false, m)
  else if m.group ≠ cfg.groupname then (false, m)
  else updateChmpxSvrs env cfg eqfd { m with replicaCount := cfg.replicaCount }

end ChmpxMan
end Chm
