/-
The pids of the client processes: `CLTPROCLIST`.

The nodes of an area are in the list of the clients, in the order of their pids, or in the free
list.  The two head pointers may stand anywhere in their lists, as an insertion before the first
node leaves them where they are; every operation goes back to the first node.  The lists do what
a bounded set of pids does (`run_refines`).
-/
import Chm.Initialize
import Mathlib.Data.Finset.Card
import Mathlib.Data.List.TakeWhile

namespace Chm

/-- `pid_t`. -/
abbrev Pid := Int

/-- The part of `CHMINFO` with the pids, and the area of the nodes. -/
structure PidLists where
  count : Nat
  links : Links Ptr
  pid : Ptr → Pid
  clientPids : Option Ptr
  freePids : Option Ptr

namespace PidLists

/-- `CHM_INVALID_PID`. -/
def chmInvalidPid : Pid := 0

/-- `MAX_CLTPROCLIST_COUNT`. -/
def maxCltproclistCount (maxClientMqCnt mqcntPerAttach : Nat) : Nat :=
  1 + maxClientMqCnt / mqcntPerAttach + 1

/-- The area after `ChmIMData::InitializeShm`: each node is linked to its neighbours. -/
def initialized (maxClientMqCnt mqcntPerAttach : Nat) : PidLists where
  count := maxCltproclistCount maxClientMqCnt mqcntPerAttach
  links := ChmpxMan.areaLinks (maxCltproclistCount maxClientMqCnt mqcntPerAttach)
  pid _ := chmInvalidPid
  clientPids := none
  freePids := some 0

/-! ## `cltproclist_lap` -/

/-- `ToFirst`. -/
def first (a : PidLists) (p : Ptr) : Ptr := a.links.first a.count p

/-- `GetFirstPtr`. -/
def getFirstPtr (a : PidLists) (cursor : Option Ptr) : Option Ptr := cursor.map a.first

/-- The nodes that the loops visit after `ToFirst`. -/
def nodes (a : PidLists) (p : Ptr) : List Ptr := a.links.walk a.count (some (a.first p))

/-- `Find`. -/
def find (a : PidLists) (p : Ptr) (pid : Pid) : Option Ptr :=
  (a.nodes p).find? fun cur => a.pid cur = pid

/-- `GetAllPids` of a list. -/
def pidsOf (a : PidLists) (p : Ptr) : List Pid := (a.nodes p).map a.pid

/-- `Initialize` with a pid. -/
def setPid (a : PidLists) (p : Ptr) (pid : Pid) : PidLists :=
  { a with pid := Function.update a.pid p pid }

/-- `Clear`. -/
def clear (a : PidLists) (p : Ptr) : PidLists :=
  { a with
    links := (a.links.setPrev p none).setNext p none
    pid := Function.update a.pid p chmInvalidPid }

/-- The loop of `Insert`: whether it succeeds, and the links. -/
def insertLoop (a : PidLists) (ptr : Ptr) : List Ptr → Bool × Links Ptr
  | [] => (true, a.links)
  | cur :: rest =>
    if a.pid ptr ≠ chmInvalidPid ∧ a.pid cur = a.pid ptr then (false, a.links)
    else if a.pid cur ≥ a.pid ptr then (true, a.links.linkBefore cur ptr)
    else if a.links.next cur = none then (true, a.links.linkLast (some cur) ptr)
    else insertLoop a ptr rest

/-- `Insert` into the list of a node. -/
def insertNode (a : PidLists) (p ptr : Ptr) : Bool × PidLists :=
  let (done, links) := a.insertLoop ptr (a.nodes p)
  (done, { a with links })

/-- `Retrieve` of a pid: the node, and where it leaves the cursor. -/
def retrievePid (a : PidLists) (p : Ptr) (pid : Pid) : Option (Ptr × Option Ptr × PidLists) :=
  match a.find p pid with
  | none => none
  | some cur =>
    let cursor := if cur = a.first p then a.links.next cur else some (a.first p)
    some (cur, cursor, { a with links := a.links.unlink cur })

/-- `Retrieve` of the node of the cursor, and where it leaves the cursor. -/
def retrieveNode (a : PidLists) (p : Ptr) : Option Ptr × PidLists :=
  let cursor := match a.links.next p with
    | some next => some next
    | none => a.links.prev p
  (cursor, { a with links := a.links.unlink p })

/-! ## `chminfo_lap` -/

def retrieveClientPid (a : PidLists) (pid : Pid) : Bool × PidLists :=
  if pid = chmInvalidPid then (false, a)
  else
    match a.clientPids with
    | none => (false, a)
    | some p =>
      match a.retrievePid p pid with
      | none => (false, a)
      | some (ptgcltproc, cursor, a) =>
        let a := { a with clientPids := a.getFirstPtr cursor }
        let a := a.clear ptgcltproc
        match a.freePids with
        | some p => (true, (a.insertNode p ptgcltproc).2)
        | none => (true, { a with freePids := a.getFirstPtr (some ptgcltproc) })

def addClientPid (a : PidLists) (pid : Pid) : Bool × PidLists :=
  if pid = chmInvalidPid then (false, a)
  else if (a.clientPids.bind fun p => a.find p pid).isSome then (true, a)
  else
    match a.freePids with
    | none => (false, a)
    | some ptgcltproc =>
      let (cursor, a) := a.retrieveNode ptgcltproc
      let a := { a with freePids := a.getFirstPtr cursor }
      let a := a.setPid ptgcltproc pid
      match a.clientPids with
      | none => (true, { a with clientPids := a.getFirstPtr (some ptgcltproc) })
      | some p =>
        let (done, a) := a.insertNode p ptgcltproc
        if done then (true, a)
        else
          -- The node goes back; without another free node the list object is empty here.
          let a := a.clear ptgcltproc
          match cursor with
          | none => (false, a)
          | some free =>
            let a := (a.insertNode free ptgcltproc).2
            (false, { a with freePids := a.getFirstPtr (some ptgcltproc) })

def getAllPids (a : PidLists) : List Pid :=
  match a.clientPids with
  | some p => a.pidsOf p
  | none => []

variable {a : PidLists} {clients frees l : List Ptr} {cs : List (List Ptr)} {p ptr : Ptr}
  {pid : Pid}

/-! ## The lists -/

/-- A head pointer stands at some node of its list. -/
def At (cursor : Option Ptr) (l : List Ptr) : Prop :=
  match cursor with
  | none => l = []
  | some p => p ∈ l

/-- The nodes are in the list of the clients, in the order of their pids, or in the free list. -/
structure Kept (a : PidLists) (clients frees : List Ptr) : Prop where
  chains : a.links.Chains [clients, frees]
  cover : (clients ++ frees).Perm (List.range a.count)
  client_at : At a.clientPids clients
  free_at : At a.freePids frees
  sorted : (clients.map a.pid).Pairwise (· < ·)
  valid : ∀ p ∈ clients, a.pid p ≠ chmInvalidPid
  cleared : ∀ p ∈ frees, a.pid p = chmInvalidPid

theorem first_of_mem (hc : a.links.Chains (l :: cs)) (hlen : l.length ≤ a.count) (hp : p ∈ l) :
    some (a.first p) = l.head? := hc.first hp hlen

theorem nodes_of_mem (hc : a.links.Chains (l :: cs)) (hlen : l.length ≤ a.count) (hp : p ∈ l) :
    a.nodes p = l := by
  rw [nodes, first_of_mem hc hlen hp]
  exact hc.walk hlen

theorem getFirstPtr_at {cursor : Option Ptr} (hc : a.links.Chains (l :: cs))
    (hlen : l.length ≤ a.count) (hat : At cursor l) : a.getFirstPtr cursor = l.head? := by
  cases cursor with
  | none =>
    obtain rfl : l = [] := hat
    rfl
  | some p => exact first_of_mem hc hlen hat

theorem at_head (l : List Ptr) : At l.head? l := by
  cases l with
  | nil => rfl
  | cons p l => exact List.mem_cons_self

/-- The pid of `q` is smaller. -/
def precedes (a : PidLists) (ptr q : Ptr) : Bool := a.pid q < a.pid ptr

/-- What the loop of `Insert` does behind nodes whose pids are smaller. -/
theorem insertLoop_spec (hnew : ∀ q ∈ l, a.pid q = a.pid ptr → a.pid ptr = chmInvalidPid) :
    ∀ {u v : List Ptr}, l = u ++ v → v ≠ [] → a.links.Chains (l :: [ptr] :: cs) →
      (a.insertLoop ptr v).1 = true ∧
        (a.insertLoop ptr v).2.Chains
          ((u ++ v.takeWhile (a.precedes ptr) ++ ptr :: v.dropWhile (a.precedes ptr)) :: cs) := by
  intro u v
  induction v generalizing u with
  | nil => exact fun _ hne => absurd rfl hne
  | cons cur v ih =>
    rintro rfl - hc
    have hdiff : ¬(a.pid ptr ≠ chmInvalidPid ∧ a.pid cur = a.pid ptr) := fun h =>
      h.1 (hnew cur (by simp) h.2)
    rw [insertLoop, if_neg hdiff]
    by_cases hge : a.pid cur ≥ a.pid ptr
    · have hnot : ¬a.precedes ptr cur = true := by
        rw [precedes, decide_eq_true_eq]
        exact not_lt.mpr hge
      rw [if_pos hge, List.takeWhile_cons_of_neg hnot, List.dropWhile_cons_of_neg hnot,
        List.append_nil]
      exact ⟨rfl, hc.linkBefore⟩
    · have hlt : a.precedes ptr cur = true := decide_eq_true (lt_of_not_ge hge)
      rw [if_neg hge, hc.next_of_split, List.takeWhile_cons_of_pos hlt,
        List.dropWhile_cons_of_pos hlt]
      cases v with
      | nil =>
        rw [List.head?_nil, if_pos rfl]
        have hlast := hc.linkLast
        rw [List.getLast?_append, List.getLast?_singleton, Option.some_or] at hlast
        exact ⟨rfl, hlast⟩
      | cons next v =>
        rw [if_neg (by simp)]
        obtain ⟨hdone, hchains⟩ := ih (u := u ++ [cur]) (by simp) (by simp) hc
        refine ⟨hdone, ?_⟩
        rw [List.append_assoc u [cur]] at hchains
        exact hchains

/-- `Insert` puts a lone node before the first node whose pid is not smaller. -/
theorem insertNode_spec (hc : a.links.Chains (l :: [ptr] :: cs)) (hlen : l.length ≤ a.count)
    (hp : p ∈ l) (hnew : ∀ q ∈ l, a.pid q = a.pid ptr → a.pid ptr = chmInvalidPid) :
    ∃ links, a.insertNode p ptr = (true, { a with links }) ∧
      links.Chains ((l.takeWhile (a.precedes ptr) ++
        ptr :: l.dropWhile (a.precedes ptr)) :: cs) := by
  have hne : l ≠ [] := List.ne_nil_of_mem hp
  obtain ⟨hdone, hchains⟩ := insertLoop_spec (u := []) hnew rfl hne hc
  refine ⟨(a.insertLoop ptr l).2, ?_, hchains⟩
  rw [insertNode, nodes_of_mem hc hlen hp]
  dsimp only
  rw [hdone]

/-! ## One operation -/

theorem Kept.length_le (h : Kept a clients frees) :
    clients.length ≤ a.count ∧ frees.length ≤ a.count := by
  have hlen := h.cover.length_eq
  rw [List.length_append, List.length_range] at hlen
  omega

theorem Kept.find_eq (h : Kept a clients frees) (pid : Pid) :
    (a.clientPids.bind fun p => a.find p pid) = clients.find? fun p => a.pid p = pid := by
  have hat := h.client_at
  cases hcursor : a.clientPids with
  | none =>
    rw [hcursor] at hat
    obtain rfl : clients = [] := hat
    rfl
  | some p =>
    rw [hcursor] at hat
    rw [Option.bind_some, find, nodes_of_mem h.chains h.length_le.1 hat]

theorem Kept.getAllPids_eq (h : Kept a clients frees) : a.getAllPids = clients.map a.pid := by
  have hat := h.client_at
  rw [getAllPids]
  cases hcursor : a.clientPids with
  | none =>
    rw [hcursor] at hat
    obtain rfl : clients = [] := hat
    rfl
  | some p =>
    rw [hcursor] at hat
    dsimp only
    rw [pidsOf, nodes_of_mem h.chains h.length_le.1 hat]

/-- The node of the cursor leaves the free list, and the cursor stands in the rest of it. -/
theorem retrieveNode_spec {u v : List Ptr} (hc : a.links.Chains ((u ++ p :: v) :: cs))
    (hlen : (u ++ p :: v).length ≤ a.count) :
    ∃ cursor links, a.retrieveNode p = (cursor, { a with links }) ∧
      links.Chains ((u ++ v) :: [p] :: cs) ∧ At cursor (u ++ v) := by
  refine ⟨_, _, rfl, hc.unlink, ?_⟩
  rw [hc.next_of_split, hc.prev_of_split]
  cases v with
  | cons next v => exact List.mem_append_right u List.mem_cons_self
  | nil =>
    rw [List.append_nil]
    dsimp only [List.head?_nil]
    cases hlast : u.getLast? with
    | none => exact List.getLast?_eq_none_iff.mp hlast
    | some q => exact List.mem_of_getLast? hlast

/-- The pids stay in order when a new one comes before the first that is not smaller. -/
theorem sorted_insert (hs : (l.map a.pid).Pairwise (· < ·))
    (hnew : ∀ q ∈ l, a.pid q ≠ a.pid ptr) :
    ((l.takeWhile (a.precedes ptr) ++ ptr :: l.dropWhile (a.precedes ptr)).map a.pid).Pairwise
      (· < ·) := by
  have hbefore : ∀ q ∈ l.takeWhile (a.precedes ptr), a.pid q < a.pid ptr := by
    intro q hq
    have hprecedes : a.precedes ptr q = true := List.mem_takeWhile_imp hq
    exact of_decide_eq_true hprecedes
  have hbehind : ∀ q ∈ l.dropWhile (a.precedes ptr), a.pid ptr < a.pid q := by
    cases hdrop : l.dropWhile (a.precedes ptr) with
    | nil => exact fun q hq => absurd hq List.not_mem_nil
    | cons d r =>
      have hd : ¬a.precedes ptr d = true := by
        have hhead := List.head?_dropWhile_not (a.precedes ptr) l
        rw [hdrop] at hhead
        simpa using hhead
      have hdl : d ∈ l := (List.dropWhile_sublist _).subset (hdrop ▸ List.mem_cons_self)
      have hlt : a.pid ptr < a.pid d := by
        rw [precedes, decide_eq_true_eq, not_lt] at hd
        exact lt_of_le_of_ne hd (Ne.symm (hnew d hdl))
      have hpair : ((d :: r).map a.pid).Pairwise (· < ·) := by
        rw [← hdrop]
        exact hs.sublist ((List.dropWhile_sublist _).map a.pid)
      intro q hq
      rcases List.mem_cons.mp hq with rfl | hq
      · exact hlt
      · exact hlt.trans ((List.pairwise_cons.mp hpair).1 _ (List.mem_map_of_mem hq))
  rw [List.map_append, List.map_cons, List.pairwise_append, List.pairwise_cons]
  refine ⟨hs.sublist ((List.takeWhile_sublist _).map a.pid), ⟨fun k hk => ?_,
    hs.sublist ((List.dropWhile_sublist _).map a.pid)⟩, fun j hj k hk => ?_⟩
  · obtain ⟨q, hq, rfl⟩ := List.mem_map.mp hk
    exact hbehind q hq
  · obtain ⟨r, hr, rfl⟩ := List.mem_map.mp hj
    rcases List.mem_cons.mp hk with rfl | hk
    · exact hbefore r hr
    · obtain ⟨q, hq, rfl⟩ := List.mem_map.mp hk
      exact (hbefore r hr).trans (hbehind q hq)

/-- A node of the free list that has been given a pid and put among the clients. -/
theorem Kept.added {u v : List Ptr} {f : Ptr} (h : Kept a clients (u ++ f :: v))
    (a' : PidLists) (clients' : List Ptr) (hpid : a'.pid f ≠ chmInvalidPid)
    (hcount : a'.count = a.count) (hpids : ∀ q, q ≠ f → a'.pid q = a.pid q)
    (hchains : a'.links.Chains [clients', u ++ v]) (hperm : clients'.Perm (f :: clients))
    (hsorted : (clients'.map a'.pid).Pairwise (· < ·)) (hat : At a'.clientPids clients')
    (hfree : a'.freePids = (u ++ v).head?) :
    Kept a' clients' (u ++ v) ∧ (clients'.map a'.pid).Perm (a'.pid f :: clients.map a.pid) := by
  have hout : f ∉ clients := fun hc => h.chains.disjoint_head hc (by simp)
  have hout' : f ∉ u ++ v := by
    have hnd := h.chains.swap.nodup_head
    rw [List.perm_middle.nodup_iff] at hnd
    exact (List.nodup_cons.mp hnd).1
  have hsame : clients.map a'.pid = clients.map a.pid :=
    List.map_congr_left fun q hq => hpids q fun he => hout (he ▸ hq)
  refine ⟨⟨hchains, ?_, hat, hfree ▸ at_head _, hsorted, fun q hq => ?_, fun q hq => ?_⟩, ?_⟩
  · rw [hcount]
    refine List.Perm.trans ?_ h.cover
    exact (hperm.append_right _).trans
      (List.perm_middle.symm.trans (List.Perm.append_left clients List.perm_middle.symm))
  · rcases List.mem_cons.mp (hperm.subset hq) with rfl | hq
    · exact hpid
    · rw [hpids q fun he => hout (he ▸ hq)]
      exact h.valid q hq
  · rw [hpids q fun he => hout' (he ▸ hq)]
    refine h.cleared q ?_
    rcases List.mem_append.mp hq with hq | hq
    · exact List.mem_append_left _ hq
    · exact List.mem_append_right _ (List.mem_cons_of_mem f hq)
  · rw [← hsame, ← List.map_cons]
    exact hperm.map _

/-- A pid that is new takes a node of the free list to its place among the clients. -/
theorem Kept.add_new (h : Kept a clients frees) (hpid : pid ≠ chmInvalidPid)
    (hnew : ∀ q ∈ clients, a.pid q ≠ pid) (hfree : frees ≠ []) :
    ∃ a' clients' frees', a.addClientPid pid = (true, a') ∧ Kept a' clients' frees' ∧
      a'.count = a.count ∧ (clients'.map a'.pid).Perm (pid :: clients.map a.pid) := by
  obtain ⟨f, hf⟩ : ∃ f, a.freePids = some f := by
    have hat := h.free_at
    cases hcursor : a.freePids with
    | none =>
      rw [hcursor] at hat
      exact absurd hat hfree
    | some f => exact ⟨f, rfl⟩
  have hmem : f ∈ frees := by
    have hat := h.free_at
    rwa [hf] at hat
  obtain ⟨u, v, rfl⟩ := List.append_of_mem hmem
  obtain ⟨cursor, links, hretrieve, hchains, hat⟩ :=
    retrieveNode_spec h.chains.swap h.length_le.2
  have hnotFound : (a.clientPids.bind fun p => a.find p pid).isSome = false := by
    rw [h.find_eq, Option.isSome_eq_false_iff, Option.isNone_iff_eq_none, List.find?_eq_none]
    exact fun q hq => by simpa using hnew q hq
  have hlenRest : (u ++ v).length ≤ a.count := by
    have hlen := h.length_le.2
    simp only [List.length_append, List.length_cons] at hlen ⊢
    omega
  have hfirst : ({ a with links } : PidLists).getFirstPtr cursor = (u ++ v).head? :=
    getFirstPtr_at (a := { a with links }) hchains hlenRest hat
  have hout : f ∉ clients := fun hc =>
    h.chains.disjoint_head hc (by simp)
  -- the free list without the node, which has its pid but is in no list yet
  rw [addClientPid, if_neg hpid, hnotFound, if_neg Bool.false_ne_true, hf]
  dsimp only
  rw [hretrieve]
  dsimp only
  rw [hfirst]
  generalize ha₁ : ({ a with links, freePids := (u ++ v).head? } : PidLists).setPid f pid = a₁
  have hcount : a₁.count = a.count := by rw [← ha₁]; rfl
  have hclient : a₁.clientPids = a.clientPids := by rw [← ha₁]; rfl
  have hpids : ∀ q, q ≠ f → a₁.pid q = a.pid q := by
    rintro q hq
    rw [← ha₁]
    exact Function.update_of_ne hq _ _
  have hself : a₁.pid f = pid := by
    rw [← ha₁]
    exact Function.update_self ..
  have hlinks : a₁.links.Chains (clients :: [f] :: [u ++ v]) := by
    rw [← ha₁]
    exact hchains.perm ((List.Perm.swap _ _ _).trans
      (((List.Perm.swap _ _ _).cons _).trans (List.Perm.swap _ _ _)))
  have hfree' : a₁.freePids = (u ++ v).head? := by rw [← ha₁]; rfl
  have hat' := h.client_at
  rw [hclient]
  cases hcursor : a.clientPids with
  | none =>
    rw [hcursor] at hat'
    obtain rfl : clients = [] := hat'
    have hlone : a₁.links.Chains ([f] :: [u ++ v]) := hlinks.tail
    have hone : [f].length ≤ a₁.count := by
      have hlen := h.length_le.2
      rw [List.length_append, List.length_cons] at hlen
      rw [hcount, List.length_singleton]
      omega
    have hhead : a₁.getFirstPtr (some f) = some f :=
      getFirstPtr_at hlone hone (List.mem_singleton_self f)
    obtain ⟨hkept, hperm⟩ := h.added { a₁ with clientPids := some f } [f]
      (by rw [hself]; exact hpid) hcount hpids hlone (List.Perm.refl _)
      (List.pairwise_singleton _ _) (List.mem_singleton_self f) hfree'
    dsimp only
    rw [hhead]
    exact ⟨_, _, _, rfl, hkept, hcount, hself ▸ hperm⟩
  | some p =>
    rw [hcursor] at hat'
    have hnew' : ∀ q ∈ clients, a₁.pid q ≠ a₁.pid f := by
      intro q hq
      rw [hself, hpids q fun he => hout (he ▸ hq)]
      exact hnew q hq
    obtain ⟨links', hinsert, hchains'⟩ := insertNode_spec hlinks (hcount ▸ h.length_le.1) hat'
      fun q hq he => absurd he (hnew' q hq)
    have hsorted : (clients.map a₁.pid).Pairwise (· < ·) := by
      rw [List.map_congr_left fun q hq => hpids q fun he => hout (he ▸ hq)]
      exact h.sorted
    have hperm : (clients.takeWhile (a₁.precedes f) ++
        f :: clients.dropWhile (a₁.precedes f)).Perm (f :: clients) := by
      refine List.perm_middle.trans (List.Perm.cons f ?_)
      rw [List.takeWhile_append_dropWhile]
    have hat₁ : At a₁.clientPids (clients.takeWhile (a₁.precedes f) ++
        f :: clients.dropWhile (a₁.precedes f)) := by
      rw [hclient, hcursor]
      exact hperm.symm.subset (List.mem_cons_of_mem f hat')
    obtain ⟨hkept, hmap⟩ := h.added { a₁ with links := links' } _
      (by rw [hself]; exact hpid) hcount hpids hchains' hperm (sorted_insert hsorted hnew') hat₁
      hfree'
    dsimp only
    rw [hinsert]
    exact ⟨_, _, _, rfl, hkept, hcount, hself ▸ hmap⟩

/-- The search finds the only client with the pid and leaves the cursor in the rest of its
list. -/
theorem Kept.retrievePid_eq {u v : List Ptr} {c : Ptr} (h : Kept a (u ++ c :: v) frees)
    (hp : p ∈ u ++ c :: v) :
    ∃ cursor, a.retrievePid p (a.pid c) = some (c, cursor, { a with links := a.links.unlink c }) ∧
      At cursor (u ++ v) := by
  have hcmem : c ∈ u ++ c :: v := List.mem_append_right u List.mem_cons_self
  have hfound : ((u ++ c :: v).find? fun p => a.pid p = a.pid c) = some c := by
    cases hq : (u ++ c :: v).find? fun p => a.pid p = a.pid c with
    | none =>
      rw [List.find?_eq_none] at hq
      exact absurd (decide_eq_true rfl) (hq c hcmem)
    | some q =>
      have hpid := List.find?_some hq
      rw [decide_eq_true_eq] at hpid
      exact congrArg some (List.inj_on_of_nodup_map (h.sorted.imp fun hlt => hlt.ne)
        (List.mem_of_find?_eq_some hq) hcmem hpid)
  have hfirst := first_of_mem h.chains h.length_le.1 hp
  rw [retrievePid, find, nodes_of_mem h.chains h.length_le.1 hp, hfound]
  refine ⟨_, rfl, ?_⟩
  rw [h.chains.next_of_split]
  cases u with
  | nil =>
    rw [if_pos (Option.some.inj hfirst).symm]
    exact at_head v
  | cons q u =>
    have hq : a.first p = q := Option.some.inj hfirst
    have hne : c ≠ q := by
      rintro rfl
      have hnd := h.chains.nodup_head
      rw [List.perm_middle.nodup_iff] at hnd
      exact (List.nodup_cons.mp hnd).1 List.mem_cons_self
    rw [hq, if_neg hne]
    exact List.mem_cons_self

/-- A client's node that has been cleared and put in front of the free list. -/
theorem Kept.released {u v : List Ptr} {c : Ptr} (h : Kept a (u ++ c :: v) frees)
    (a' : PidLists) (hcount : a'.count = a.count)
    (hpids : a'.pid = Function.update a.pid c chmInvalidPid)
    (hchains : a'.links.Chains [u ++ v, c :: frees]) (hclient : a'.clientPids = (u ++ v).head?)
    (hat : At a'.freePids (c :: frees)) :
    Kept a' (u ++ v) (c :: frees) ∧
      ((u ++ c :: v).map a.pid).Perm (a.pid c :: (u ++ v).map a'.pid) := by
  have hnd := h.chains.nodup_head
  rw [List.perm_middle.nodup_iff] at hnd
  have hc : c ∉ u ++ v := (List.nodup_cons.mp hnd).1
  have hout : c ∉ frees := fun hf =>
    h.chains.disjoint_head (List.mem_append_right u List.mem_cons_self) (by simpa using hf)
  have hother : ∀ q, q ≠ c → a'.pid q = a.pid q := fun q hq => by
    rw [hpids, Function.update_of_ne hq]
  have hrest : (u ++ v).map a'.pid = (u ++ v).map a.pid :=
    List.map_congr_left fun q hq => hother q fun he => hc (he ▸ hq)
  refine ⟨⟨hchains, ?_, hclient ▸ at_head _, hat, ?_, fun q hq => ?_, fun q hq => ?_⟩, ?_⟩
  · rw [hcount]
    refine List.Perm.trans ?_ h.cover
    rw [List.append_assoc, List.append_assoc]
    exact List.Perm.append_left u List.perm_middle
  · rw [hrest]
    exact h.sorted.sublist (((List.sublist_cons_self c v).append_left u).map a.pid)
  · rw [hother q fun he => hc (he ▸ hq)]
    refine h.valid q ?_
    rcases List.mem_append.mp hq with hq | hq
    · exact List.mem_append_left _ hq
    · exact List.mem_append_right _ (List.mem_cons_of_mem c hq)
  · rcases List.mem_cons.mp hq with rfl | hq
    · rw [hpids, Function.update_self]
    · rw [hother q fun he => hout (he ▸ hq)]
      exact h.cleared q hq
  · rw [hrest, ← List.map_cons]
    exact List.perm_middle.map _

/-- A pid that is found gives its node back to the free list. -/
theorem Kept.retrieve (h : Kept a clients frees) (hpid : pid ≠ chmInvalidPid)
    (hmem : pid ∈ clients.map a.pid) :
    ∃ a' clients' frees', a.retrieveClientPid pid = (true, a') ∧ Kept a' clients' frees' ∧
      a'.count = a.count ∧ (clients.map a.pid).Perm (pid :: clients'.map a'.pid) := by
  obtain ⟨c, hcmem, rfl⟩ := List.mem_map.mp hmem
  obtain ⟨p, hp⟩ : ∃ p, a.clientPids = some p := by
    have hat := h.client_at
    cases hcursor : a.clientPids with
    | none =>
      rw [hcursor] at hat
      exact absurd hcmem (hat ▸ List.not_mem_nil)
    | some p => exact ⟨p, rfl⟩
  have hpmem : p ∈ clients := by
    have hat := h.client_at
    rwa [hp] at hat
  obtain ⟨u, v, rfl⟩ := List.append_of_mem hcmem
  obtain ⟨cursor, hretrieve, hat⟩ := h.retrievePid_eq hpmem
  have hlen := h.length_le.1
  rw [List.length_append, List.length_cons] at hlen
  have hchains := h.chains.unlink
  have hhead := getFirstPtr_at (a := { a with links := a.links.unlink c }) hchains
    (by rw [List.length_append]; exact (by omega : u.length + v.length ≤ a.count)) hat
  have hlone : (a.links.unlink c).Chains [[c], u ++ v, frees] := hchains.swap
  have hclear : ((a.links.unlink c).setPrev c none).setNext c none = a.links.unlink c :=
    Links.clear_of_none hlone.prev_of_cons hlone.next_of_cons
  rw [retrieveClientPid, if_neg hpid, hp]
  dsimp only
  rw [hretrieve]
  dsimp only
  rw [hhead, clear]
  dsimp only
  rw [hclear]
  have hfreeAt := h.free_at
  cases hcursor : a.freePids with
  | none =>
    rw [hcursor] at hfreeAt
    obtain rfl : frees = [] := hfreeAt
    have hat' : At (some c) [c] := List.mem_singleton_self c
    have hself := getFirstPtr_at (a := ⟨a.count, a.links.unlink c,
      Function.update a.pid c chmInvalidPid, (u ++ v).head?, none⟩) hlone
      (by rw [List.length_singleton]; exact (by omega : 1 ≤ a.count)) hat'
    have hlone' : (a.links.unlink c).Chains [u ++ v, [c]] :=
      (hchains.perm (@List.perm_append_comm _ [u ++ v, [c]] [[]])).tail
    obtain ⟨hkept, hperm⟩ := h.released ⟨a.count, a.links.unlink c,
      Function.update a.pid c chmInvalidPid, (u ++ v).head?, some c⟩ rfl rfl hlone' rfl
      (List.mem_singleton_self c)
    dsimp only
    rw [hself]
    exact ⟨_, _, _, rfl, hkept, rfl, hperm⟩
  | some free =>
    rw [hcursor] at hfreeAt
    have horder : (a.links.unlink c).Chains (frees :: [c] :: [u ++ v]) :=
      (hchains.swap.perm ((List.Perm.swap _ _ _).cons _)).perm (List.Perm.swap _ _ _)
    have hcleared : ∀ q ∈ frees, Function.update a.pid c chmInvalidPid q = chmInvalidPid := by
      intro q hq
      rw [Function.update_apply, h.cleared q hq, ite_self]
    obtain ⟨links', hinsert, hchains'⟩ := insertNode_spec (a := ⟨a.count, a.links.unlink c,
      Function.update a.pid c chmInvalidPid, (u ++ v).head?, some free⟩) horder h.length_le.2
      hfreeAt fun q hq he => Function.update_self ..
    -- no free node has a smaller pid, so it becomes the first one
    have hnone : ∀ q ∈ frees, ¬precedes ⟨a.count, a.links.unlink c,
        Function.update a.pid c chmInvalidPid, (u ++ v).head?, some free⟩ c q = true := by
      intro q hq
      rw [precedes, decide_eq_true_eq]
      dsimp only
      rw [hcleared q hq, Function.update_self]
      exact lt_irrefl _
    obtain ⟨f, r, rfl⟩ := List.exists_cons_of_ne_nil (List.ne_nil_of_mem hfreeAt)
    rw [List.takeWhile_cons_of_neg (hnone f List.mem_cons_self),
      List.dropWhile_cons_of_neg (hnone f List.mem_cons_self)] at hchains'
    obtain ⟨hkept, hperm⟩ := h.released ⟨a.count, links',
      Function.update a.pid c chmInvalidPid, (u ++ v).head?, some free⟩ rfl rfl hchains'.swap rfl
      (List.mem_cons_of_mem c hfreeAt)
    dsimp only
    rw [hinsert]
    exact ⟨_, _, _, rfl, hkept, rfl, hperm⟩

/-! ## A bounded set of pids -/

/-- What the lists are for: a set of pids with room for `capacity` of them. -/
structure PidSet where
  capacity : Nat
  pids : Finset Pid

/-- Add a pid; one that is there already needs no room. -/
def PidSet.add (s : PidSet) (pid : Pid) : Bool × PidSet :=
  if pid = chmInvalidPid then (false, s)
  else if pid ∈ s.pids then (true, s)
  else if s.pids.card < s.capacity then (true, { s with pids := insert pid s.pids })
  else (false, s)

def PidSet.retrieve (s : PidSet) (pid : Pid) : Bool × PidSet :=
  if pid ∈ s.pids then (true, { s with pids := s.pids.erase pid }) else (false, s)

inductive PidOp
  | addClientPid (pid : Pid)
  | retrieveClientPid (pid : Pid)
  deriving DecidableEq, Repr

def exec (a : PidLists) : PidOp → Bool × PidLists
  | .addClientPid pid => a.addClientPid pid
  | .retrieveClientPid pid => a.retrieveClientPid pid

def PidSet.exec (s : PidSet) : PidOp → Bool × PidSet
  | .addClientPid pid => s.add pid
  | .retrieveClientPid pid => s.retrieve pid

/-- What the operations return one after another, and where they lead. -/
def execAll {σ : Type} (exec : σ → PidOp → Bool × σ) (s : σ) : List PidOp → List Bool × σ
  | [] => ([], s)
  | op :: ops =>
    let (done, s) := exec s op
    let (rest, s) := execAll exec s ops
    (done :: rest, s)

/-- The lists hold the pids of the set. -/
def Refines (a : PidLists) (s : PidSet) : Prop :=
  ∃ clients frees, Kept a clients frees ∧ a.count = s.capacity ∧
    ∀ pid, pid ∈ clients.map a.pid ↔ pid ∈ s.pids

theorem Kept.initialized (maxClientMqCnt mqcntPerAttach : Nat) :
    Kept (initialized maxClientMqCnt mqcntPerAttach) []
      (List.range (maxCltproclistCount maxClientMqCnt mqcntPerAttach)) where
  chains := ChmpxMan.areaLinks_chains _
  cover := List.Perm.refl _
  client_at := rfl
  free_at := List.mem_range.mpr (Nat.succ_pos _)
  sorted := List.Pairwise.nil
  valid _ h := absurd h List.not_mem_nil
  cleared _ _ := rfl

theorem Kept.nodup_pids (h : Kept a clients frees) : (clients.map a.pid).Nodup :=
  h.sorted.imp fun hlt => hlt.ne

/-- There is room in the set when there is a free node. -/
theorem Kept.card_lt_iff {s : PidSet} (h : Kept a clients frees) (hcount : a.count = s.capacity)
    (hpids : ∀ pid, pid ∈ clients.map a.pid ↔ pid ∈ s.pids) :
    s.pids.card < s.capacity ↔ frees ≠ [] := by
  have hcard : s.pids = (clients.map a.pid).toFinset := by
    ext pid
    rw [List.mem_toFinset, hpids]
  have hlen := h.cover.length_eq
  rw [List.length_append, List.length_range] at hlen
  rw [hcard, List.toFinset_card_of_nodup h.nodup_pids, List.length_map, ← hcount,
    ← List.length_pos_iff]
  omega

/-- An operation on the lists does what the one on the set does. -/
theorem Refines.exec {s : PidSet} (h : Refines a s) (op : PidOp) :
    (a.exec op).1 = (s.exec op).1 ∧ Refines (a.exec op).2 (s.exec op).2 := by
  obtain ⟨clients, frees, hk, hcount, hpids⟩ := h
  cases op with
  | addClientPid pid =>
    rw [PidLists.exec, PidSet.exec, PidSet.add]
    by_cases hpid : pid = chmInvalidPid
    · rw [if_pos hpid, addClientPid, if_pos hpid]
      exact ⟨rfl, clients, frees, hk, hcount, hpids⟩
    rw [if_neg hpid]
    by_cases hin : pid ∈ s.pids
    · have hfound : (a.clientPids.bind fun p => a.find p pid).isSome = true := by
        obtain ⟨q, hq, hqpid⟩ := List.mem_map.mp ((hpids pid).mpr hin)
        rw [hk.find_eq, List.find?_isSome]
        exact ⟨q, hq, decide_eq_true hqpid⟩
      rw [if_pos hin, addClientPid, if_neg hpid, if_pos hfound]
      exact ⟨rfl, clients, frees, hk, hcount, hpids⟩
    rw [if_neg hin]
    have hnew : ∀ q ∈ clients, a.pid q ≠ pid := fun q hq he =>
      hin ((hpids pid).mp (he ▸ List.mem_map_of_mem hq))
    by_cases hroom : s.pids.card < s.capacity
    · obtain ⟨a', clients', frees', hrun, hk', hcount', hperm⟩ :=
        hk.add_new hpid hnew ((hk.card_lt_iff hcount hpids).mp hroom)
      rw [if_pos hroom, hrun]
      refine ⟨rfl, clients', frees', hk', hcount'.trans hcount, fun x => ?_⟩
      rw [hperm.mem_iff, List.mem_cons, Finset.mem_insert, hpids]
    · have hempty : frees = [] := by
        by_contra hne
        exact hroom ((hk.card_lt_iff hcount hpids).mpr hne)
      have hnone : a.freePids = none := by
        have hat := hk.free_at
        cases hcursor : a.freePids with
        | none => rfl
        | some f =>
          rw [hcursor, hempty] at hat
          exact absurd hat List.not_mem_nil
      have hnotFound : ¬(a.clientPids.bind fun p => a.find p pid).isSome = true := by
        rw [hk.find_eq, List.find?_isSome]
        rintro ⟨q, hq, hqpid⟩
        exact hnew q hq (of_decide_eq_true hqpid)
      rw [if_neg hroom, addClientPid, if_neg hpid, if_neg hnotFound, hnone]
      exact ⟨rfl, clients, frees, hk, hcount, hpids⟩
  | retrieveClientPid pid =>
    rw [PidLists.exec, PidSet.exec, PidSet.retrieve]
    by_cases hin : pid ∈ s.pids
    · have hmem := (hpids pid).mpr hin
      have hpid : pid ≠ chmInvalidPid := by
        obtain ⟨q, hq, rfl⟩ := List.mem_map.mp hmem
        exact hk.valid q hq
      obtain ⟨a', clients', frees', hrun, hk', hcount', hperm⟩ := hk.retrieve hpid hmem
      rw [if_pos hin, hrun]
      refine ⟨rfl, clients', frees', hk', hcount'.trans hcount, fun x => ?_⟩
      have hnd := hperm.nodup_iff.mp hk.nodup_pids
      rw [Finset.mem_erase, ← hpids, hperm.mem_iff, List.mem_cons]
      constructor
      · intro hx
        exact ⟨fun he => (List.nodup_cons.mp hnd).1 (he ▸ hx), Or.inr hx⟩
      · rintro ⟨hne, hx⟩
        exact hx.resolve_left hne
    · rw [if_neg hin]
      have hfail : a.retrieveClientPid pid = (false, a) := by
        rw [retrieveClientPid]
        by_cases hpid : pid = chmInvalidPid
        · exact if_pos hpid
        rw [if_neg hpid]
        cases hcursor : a.clientPids with
        | none => rfl
        | some p =>
          have hfind := hk.find_eq pid
          have hnone : (clients.find? fun p => a.pid p = pid) = none := by
            rw [List.find?_eq_none]
            intro q hq hqpid
            exact hin ((hpids pid).mp (of_decide_eq_true hqpid ▸ List.mem_map_of_mem hq))
          rw [hcursor, Option.bind_some, hnone] at hfind
          dsimp only
          rw [retrievePid, hfind]
      rw [hfail]
      exact ⟨rfl, clients, frees, hk, hcount, hpids⟩

theorem PidSet.capacity_exec (s : PidSet) (op : PidOp) : (s.exec op).2.capacity = s.capacity := by
  cases op with
  | addClientPid pid =>
    rw [PidSet.exec, PidSet.add]
    split_ifs <;> rfl
  | retrieveClientPid pid =>
    rw [PidSet.exec, PidSet.retrieve]
    split_ifs <;> rfl

theorem PidSet.capacity_execAll (ops : List PidOp) :
    ∀ s : PidSet, (PidLists.execAll PidSet.exec s ops).2.capacity = s.capacity := by
  induction ops with
  | nil => exact fun s => rfl
  | cons op ops ih => exact fun s => (ih _).trans (s.capacity_exec op)

/-- A run of the lists does what the run of the set does. -/
theorem Refines.execAll (ops : List PidOp) :
    ∀ {a : PidLists} {s : PidSet}, Refines a s →
      (PidLists.execAll PidLists.exec a ops).1 = (PidLists.execAll PidSet.exec s ops).1 ∧
        Refines (PidLists.execAll PidLists.exec a ops).2
          (PidLists.execAll PidSet.exec s ops).2 := by
  induction ops with
  | nil => exact fun h => ⟨rfl, h⟩
  | cons op ops ih =>
    intro a s h
    obtain ⟨hdone, hnext⟩ := h.exec op
    obtain ⟨hrest, hend⟩ := ih hnext
    exact ⟨congrArg₂ List.cons hdone hrest, hend⟩

/-- The nodes of the lists that the two head pointers stand in. -/
def nodesOf (a : PidLists) (cursor : Option Ptr) : List Ptr :=
  match cursor with
  | none => []
  | some p => a.nodes p

theorem nodesOf_at {cursor : Option Ptr} (hc : a.links.Chains (l :: cs))
    (hlen : l.length ≤ a.count) (hat : At cursor l) : a.nodesOf cursor = l := by
  cases cursor with
  | none => exact hat.symm
  | some p => exact nodes_of_mem hc hlen hat

/-- In every run the operations return what those on a bounded set do, `GetAllPids` returns the
pids of the set in ascending order, and every node is in one of the two lists. -/
theorem run_refines (maxClientMqCnt mqcntPerAttach : Nat) (ops : List PidOp) :
    let r := execAll PidLists.exec (initialized maxClientMqCnt mqcntPerAttach) ops
    let s := execAll PidSet.exec ⟨maxCltproclistCount maxClientMqCnt mqcntPerAttach, ∅⟩ ops
    r.1 = s.1 ∧ r.2.getAllPids.Pairwise (· < ·) ∧
      (∀ pid, pid ∈ r.2.getAllPids ↔ pid ∈ s.2.pids) ∧
      (r.2.nodesOf r.2.clientPids ++ r.2.nodesOf r.2.freePids).Perm
        (List.range (maxCltproclistCount maxClientMqCnt mqcntPerAttach)) := by
  have hstart : Refines (initialized maxClientMqCnt mqcntPerAttach)
      ⟨maxCltproclistCount maxClientMqCnt mqcntPerAttach, ∅⟩ :=
    ⟨_, _, Kept.initialized maxClientMqCnt mqcntPerAttach, rfl, fun pid => by simp⟩
  obtain ⟨hdone, clients, frees, hk, hcount, hpids⟩ := Refines.execAll ops hstart
  rw [PidSet.capacity_execAll] at hcount
  dsimp only at hcount ⊢
  rw [hk.getAllPids_eq, nodesOf_at hk.chains hk.length_le.1 hk.client_at,
    nodesOf_at hk.chains.swap hk.length_le.2 hk.free_at]
  exact ⟨hdone, hk.sorted, hpids, hcount ▸ hk.cover⟩

/-- Three pids and one that goes, in an area of four nodes. -/
example : (execAll PidLists.exec (initialized 4 2) [.addClientPid 30, .addClientPid 10,
    .addClientPid 20, .retrieveClientPid 10, .addClientPid 20]).2.getAllPids = [20, 30] := by
  decide +kernel

end PidLists
end Chm
