/-
`ReloadConfiguration` as moves of nodes.

The first phase takes a node for a configured server that the list does not have, the
second gives back the servers that are out of service and not configured any more.  The
rule follows the first loop with the configured servers that are done.
-/
import Chm.AreaInit
import Chm.AreaMerge
import Chm.Reload

namespace Chm

namespace ChmpxMan

variable {env : Env} {cfg : ChmCfgInfo} {par : ChmpxParam} {selfchmpxid : ChmpxId}
variable {m m' : ChmpxMan} {a a' : Placement} {p : Ptr} {c : Chmpx}
variable {P : List ChmpxParam → ChmpxMan → Placement → Prop}

/-! ## The servers that are configured -/

/-- A configured server that the list does not have has a host name that `Initialize`
accepts. -/
def UpdateNames (env : Env) (cfg : ChmCfgInfo) (m : ChmpxMan) : Prop :=
  ∀ par ∈ cfg.servers, m.isListed env par = false →
    Chmpx.refuses env cfg.groupname par.hostname = false

/-- The configured servers that the list does not have. -/
def unlisted (env : Env) (m : ChmpxMan) (pars : List ChmpxParam) : List ChmpxParam :=
  pars.filter fun par => !m.isListed env par

theorem Area.nodes (h : Area m a) : m.nodes m.chmpxServers = a.svrs :=
  h.lists.nodes_servers h.servers

theorem Area.isListed_eq (h : Area m a) (par : ChmpxParam) :
    m.isListed env par = a.svrs.any fun p => matchesParam env (m.chmpx p) par := by
  rw [isListed, h.nodes]

theorem Added.keptChmpxId (ha : Added m m' a a' p c) (h : Places m a) :
    m'.keptChmpxId = m.keptChmpxId := by
  have hself := ha.site.chmpxSelf
  unfold ChmpxMan.keptChmpxId isServerMode getSelfChmpxId
  rw [hself]
  cases hs : m.chmpxSelf with
  | none => rfl
  | some q =>
    have hqp : q ≠ p := fun he => h.self_not_free hs (he ▸ ha.mem_free)
    have hq : m'.chmpx q = m.chmpx q := by rw [ha.chmpx_eq, if_neg hqp]
    simp only [hq]

/-- A server that is added hides no other. -/
theorem AddedServer.isListed (h : Area m a) (h' : Area m' a') (ha : AddedServer m m' a a' p c)
    (hl : m.isListed env par = true) : m'.isListed env par = true := by
  rw [h.isListed_eq, List.any_eq_true] at hl
  rw [h'.isListed_eq, List.any_eq_true]
  obtain ⟨q, hq, hmatch⟩ := hl
  have hqp : q ≠ p := fun he => (h.notMem_of_free ha.mem_free).1 (he ▸ hq)
  refine ⟨q, ha.svrs.mem_iff.mpr (List.mem_cons_of_mem _ hq), ?_⟩
  rw [ha.chmpx_eq, if_neg hqp]
  exact hmatch

/-- What the first phase must keep; it either never runs out of free nodes, or the
property does not care about the counter. -/
structure UpdateKeeps (P : List ChmpxParam → ChmpxMan → Placement → Prop) (env : Env)
    (cfg : ChmCfgInfo) (m : ChmpxMan) : Prop where
  listed : ∀ {done par rest m a}, cfg.servers = done ++ par :: rest →
    m.isListed env par = true → P done m a → P (done ++ [par]) m a
  counted : (unlisted env m cfg.servers).length ≤ m.chmpxFreeCount ∨
    ∀ {done par rest m a} n, cfg.servers = done ++ par :: rest → P done m a →
      P (done ++ [par]) (m.setServers n m.chmpxServers) a
  added : ∀ {done par rest m m' a a' p c}, cfg.servers = done ++ par :: rest → Area m a →
    m.isListed env par = false →
    Chmpx.initializeChmpx env cfg.chmpxidType cfg.groupname .server par = some c →
    AddedServer m m' a a' p c → P done m a → P (done ++ [par]) m' a'

/-- The first phase from a state in the middle of it. -/
theorem updateChmpxSvrLoop_rule {m₀ : ChmpxMan} (hP : UpdateKeeps P env cfg m₀)
    (pars : List ChmpxParam) :
    ∀ (done : List ChmpxParam) (m : ChmpxMan) (a : Placement), cfg.servers = done ++ pars →
      Area m a →
      (∀ par ∈ pars, m.isListed env par = false →
        Chmpx.refuses env cfg.groupname par.hostname = false) →
      ((unlisted env m₀ cfg.servers).length ≤ m₀.chmpxFreeCount →
        (unlisted env m pars).length ≤ m.chmpxFreeCount) → P done m a →
      ∃ a' m', updateChmpxSvrLoop env cfg pars m.chmpxFrees m = (m'.chmpxFrees, m') ∧
        Area m' a' ∧ P cfg.servers m' a' ∧ m'.keptChmpxId = m.keptChmpxId := by
  induction pars with
  | nil =>
    intro done m a hcfg h _ _ hp
    rw [List.append_nil] at hcfg
    exact ⟨a, m, rfl, h, hcfg ▸ hp, rfl⟩
  | cons par pars ih =>
    intro done m a hcfg h hnames hfree hp
    have hcfg' : cfg.servers = (done ++ [par]) ++ pars := by rw [hcfg]; simp
    have hnames' := fun q hq => hnames q (List.mem_cons_of_mem _ hq)
    cases hl : m.isListed env par with
    | true =>
      have hstep : updateChmpxSvr env cfg par m.chmpxFrees m = (m.chmpxFrees, m) := by
        simp only [updateChmpxSvr, hl, if_true]
      rw [updateChmpxSvrLoop, hstep]
      refine ih _ m a hcfg' h hnames' (fun hle => ?_) (hP.listed hcfg hl hp)
      have hle' := hfree hle
      unfold unlisted at hle' ⊢
      rwa [List.filter_cons_of_neg (by simp [hl])] at hle'
    | false =>
      have hw := h.withFrees_eq
      have harea : Area (m.withFrees a.frees) a := by rw [hw]; exact h
      have hhead : m.chmpxFrees = a.frees.head? := h.lists.frees_head
      obtain ⟨added, hcall⟩ : ∃ added,
          addConfigured env cfg.chmpxidType cfg.groupname par a.frees.head? m = added := ⟨_, rfl⟩
      have hstep : updateChmpxSvr env cfg par m.chmpxFrees m =
          (added.2.getFirstPtr added.1,
            added.2.setFrees (added.2.chmpxFreeCount - 1) (added.2.getFirstPtr added.1)) := by
        rw [← hcall]
        simp only [updateChmpxSvr, hl, Bool.false_eq_true, if_false, hhead, addConfigured]
      have hcases := @addConfigured_cases env cfg.chmpxidType cfg.groupname par m a harea
        (hnames par List.mem_cons_self hl)
      rcases hcases with
        ⟨hnil, n, hadd, hn⟩ | ⟨p, svrs', fs, c, m₂, hinit, hfr, hadd, hadded, harea', hfc⟩
      · -- The server is only counted: an empty free list stays empty.
        have hzero : m.chmpxFreeCount = 0 := by rw [h.lists.freeCount, hnil]; rfl
        have hnone : m.chmpxFrees = none := by rw [hhead, hnil]; rfl
        have hman : updateChmpxSvr env cfg par m.chmpxFrees m =
            (m.chmpxFrees, m.setServers n m.chmpxServers) := by
          rw [hstep, ← hcall, hadd, hnone]
          show (none, (m.setServers n m.chmpxServers).setFrees (m.chmpxFreeCount - 1) none) = _
          rw [hzero, ← hnone]
          unfold setServers setFrees
          rw [Nat.zero_sub, ← hzero]
        have harea' : Area (m.setServers n m.chmpxServers) a :=
          ⟨⟨⟨h.lists.1, h.lists.2, h.lists.3, h.lists.4, hn, h.lists.6, h.lists.7⟩, h.cover,
            h.slaves, h.self, h.live⟩, h.servers, h.limit⟩
        have hp' : P (done ++ [par]) (m.setServers n m.chmpxServers) a := by
          rcases hP.counted with hle | hc
          · have hle' := hfree hle
            unfold unlisted at hle'
            rw [List.filter_cons_of_pos (by simp [hl]), List.length_cons] at hle'
            omega
          · exact hc n hcfg hp
        rw [updateChmpxSvrLoop, hman]
        refine ih _ _ a hcfg' harea' hnames' (fun hle => ?_) hp'
        have hle' := hfree hle
        unfold unlisted at hle' ⊢
        rw [List.filter_cons_of_pos (by simp [hl]), List.length_cons] at hle'
        show _ ≤ m.chmpxFreeCount
        omega
      · have hfs : m₂.getFirstPtr fs.head? = fs.head? := by
          cases fs with
          | nil => rfl
          | cons f fs =>
            have hlen : (f :: fs).length ≤ m₂.chmpxCount :=
              harea'.lists.length_le (List.mem_cons_of_mem _ List.mem_cons_self)
            exact harea'.lists.chains.swap.first List.mem_cons_self hlen
        have hcount : m₂.chmpxFreeCount - 1 = fs.length := by
          rw [hfc, h.lists.freeCount, hfr]
          rfl
        have hman : updateChmpxSvr env cfg par m.chmpxFrees m = (fs.head?, m₂.withFrees fs) := by
          rw [hstep, ← hcall, hadd]
          show (m₂.getFirstPtr fs.head?,
            m₂.setFrees (m₂.chmpxFreeCount - 1) (m₂.getFirstPtr fs.head?)) = _
          rw [hfs, hcount]
          rfl
        rw [hw] at hadded
        have hmono : ∀ q, m.isListed env q = true → (m₂.withFrees fs).isListed env q = true :=
          fun q => hadded.isListed h harea'
        have hnames₂ : ∀ q ∈ pars, (m₂.withFrees fs).isListed env q = false →
            Chmpx.refuses env cfg.groupname q.hostname = false := by
          intro q hq hl'
          refine hnames' q hq ?_
          by_contra hne
          rw [hmono q (by simpa using hne)] at hl'
          cases hl'
        have hfree₂ : (unlisted env m₀ cfg.servers).length ≤ m₀.chmpxFreeCount →
            (unlisted env (m₂.withFrees fs) pars).length ≤ (m₂.withFrees fs).chmpxFreeCount := by
          intro hle
          have hle' := hfree hle
          have hsub : (unlisted env (m₂.withFrees fs) pars).length ≤
              (unlisted env m pars).length := by
            refine (List.monotone_filter_right pars fun q hq => ?_).length_le
            by_contra hne
            rw [hmono q (by simpa using hne)] at hq
            cases hq
          rw [h.lists.freeCount, hfr] at hle'
          unfold unlisted at hle' hsub ⊢
          rw [List.filter_cons_of_pos (by simp [hl]), List.length_cons, List.length_cons] at hle'
          show _ ≤ fs.length
          omega
        obtain ⟨a', m', hrun, h', hp', hkept⟩ := ih (done ++ [par]) (m₂.withFrees fs) _ hcfg'
          harea' hnames₂ hfree₂ (hP.added hcfg h hl hinit hadded hp)
        refine ⟨a', m', ?_, h', hp', hkept.trans (hadded.keptChmpxId h.toPlaces)⟩
        rw [updateChmpxSvrLoop, hman]
        exact hrun

/-- The manager after the second phase has taken out the server at the cursor. -/
def removeListed (eqfd topoflist : Bool) (p : Ptr) (m : ChmpxMan) : ChmpxMan :=
  let (cur, m) := m.retrieve p
  let m := m.giveBack eqfd p
  let m := if topoflist then m.setServers m.chmpxServerCount cur else m
  m.setServers (m.chmpxServerCount - 1) m.chmpxServers

theorem updateRemoveLoop_remove {eqfd : Bool} (fuel : Nat) (topoflist : Bool)
    (hs : staysListed env cfg selfchmpxid (m.chmpx p) = false) :
    updateRemoveLoop env cfg eqfd selfchmpxid (fuel + 1) (some p) topoflist m =
      updateRemoveLoop env cfg eqfd selfchmpxid fuel (m.retrieve p).1 topoflist
        (m.removeListed eqfd topoflist p) := by
  rw [updateRemoveLoop, hs, if_neg Bool.false_ne_true]
  rfl

theorem updateRemoveLoop_keep {eqfd : Bool} (fuel : Nat) (topoflist : Bool)
    (hs : staysListed env cfg selfchmpxid (m.chmpx p) = true) :
    updateRemoveLoop env cfg eqfd selfchmpxid (fuel + 1) (some p) topoflist m =
      match m.toNext p with
      | none => m
      | some q => updateRemoveLoop env cfg eqfd selfchmpxid fuel (some q) false m := by
  show (if staysListed env cfg selfchmpxid (m.chmpx p) = true then _ else _) = _
  exact if_pos hs

/-- One server leaves the list in the second phase. -/
theorem Area.dropListed {eqfd topoflist : Bool} (h : Area m a) {l₁ l₂ : List Ptr}
    (hl : a.svrs = l₁ ++ p :: l₂) (hself : m.chmpxSelf ≠ some p)
    (htop : topoflist = true ↔ l₁ = [])
    (hm' : m' = m.removeListed eqfd topoflist p) :
    DroppedServer m m' a ⟨l₁ ++ l₂, p :: a.frees, a.slaves, a.self⟩ p eqfd ∧
      Area m' ⟨l₁ ++ l₂, p :: a.frees, a.slaves, a.self⟩ ∧
      (m.retrieve p).1 = l₂.head?.or l₁.getLast? := by
  obtain ⟨hd, hplaces, hcur⟩ := h.toPlaces.dropServer hl hself eqfd
    (if topoflist then (m.retrieve p).1 else ((m.retrieve p).2.giveBack eqfd p).chmpxServers)
    (show m' = _ by rw [hm', removeListed]; cases topoflist <;> rfl)
  refine ⟨hd, ⟨hplaces, ?_, hd.site.chmpxCount ▸ h.limit⟩, hcur⟩
  have hhead : m'.chmpxServers = if topoflist then (m.retrieve p).1
      else ((m.retrieve p).2.giveBack eqfd p).chmpxServers := by
    rw [hm', removeListed]
    cases topoflist <;> rfl
  rw [hhead]
  split
  · rename_i ht
    rw [hcur, htop.mp ht]
    exact Option.or_none
  · rename_i ht
    have hne : l₁ ≠ [] := fun he => ht (htop.mpr he)
    have hgb : ((m.retrieve p).2.giveBack eqfd p).chmpxServers = m.chmpxServers := by
      obtain ⟨k, same, map, n, head, hg⟩ := giveBack_form eqfd p (m.retrieve p).2
      obtain ⟨same', map', hr⟩ := retrieve_form m p
      rw [hg, hr]
      rfl
    rw [hgb, h.servers, hl, List.head?_append_of_ne_nil _ hne]
    exact (List.head?_append_of_ne_nil _ hne).symm

/-- What the second phase must keep. -/
def RemoveKeeps (Q : ChmpxMan → Placement → Prop) (env : Env) (cfg : ChmCfgInfo) (eqfd : Bool)
    (selfchmpxid : ChmpxId) : Prop :=
  ∀ {m m' a a' p}, Area m a → p ∈ a.svrs →
    staysListed env cfg selfchmpxid (m.chmpx p) = false →
    DroppedServer m m' a a' p eqfd → Q m a → Q m' a'

/-- The state in the second phase with the cursor behind the servers `l₁`. -/
structure Removing (Q : ChmpxMan → Placement → Prop) (env : Env) (cfg : ChmCfgInfo)
    (selfchmpxid : ChmpxId) (m : ChmpxMan) (a : Placement) (l₁ l₂ : List Ptr) : Prop where
  area : Area m a
  split : a.svrs = l₁ ++ l₂
  selfKept : SelfKept m selfchmpxid
  stays : ∀ q ∈ l₁, staysListed env cfg selfchmpxid (m.chmpx q) = true
  holds : Q m a

variable {Q : ChmpxMan → Placement → Prop} {eqfd topoflist : Bool} {l₁ l₂ : List Ptr}

theorem Removing.keep (h : Removing Q env cfg selfchmpxid m a l₁ (p :: l₂))
    (hs : staysListed env cfg selfchmpxid (m.chmpx p) = true) :
    Removing Q env cfg selfchmpxid m a (l₁ ++ [p]) l₂ := by
  refine ⟨h.area, by rw [h.split]; simp, h.selfKept, fun q hq => ?_, h.holds⟩
  rcases List.mem_append.mp hq with hq | hq
  · exact h.stays q hq
  · rw [List.mem_singleton.mp hq]
    exact hs

theorem Removing.done (h : Removing Q env cfg selfchmpxid m a l₁ []) :
    Removing Q env cfg selfchmpxid m a a.svrs [] := by
  have hl : a.svrs = l₁ := by rw [h.split, List.append_nil]
  exact ⟨h.area, (List.append_nil _).symm, h.selfKept, fun q hq => h.stays q (hl ▸ hq), h.holds⟩

theorem Removing.remove (h : Removing Q env cfg selfchmpxid m a l₁ (p :: l₂))
    (hQ : RemoveKeeps Q env cfg eqfd selfchmpxid)
    (hs : staysListed env cfg selfchmpxid (m.chmpx p) = false) (htop : topoflist = true ↔ l₁ = [])
    (hm' : m' = m.removeListed eqfd topoflist p) :
    Removing Q env cfg selfchmpxid m' ⟨l₁ ++ l₂, p :: a.frees, a.slaves, a.self⟩ l₁ l₂ ∧
      (m.retrieve p).1 = l₂.head?.or l₁.getLast? := by
  have hp : p ∈ a.svrs := by rw [h.split]; simp
  have hk : kept selfchmpxid [] (m.chmpx p) = false := by
    simp only [staysListed, Bool.or_eq_false_iff] at hs
    simpa [kept] using hs.1.1.1.1
  obtain ⟨hd, harea, hcur⟩ := h.area.dropListed h.split
    (h.selfKept.ne_self h.area.toPlaces hp hk) htop hm'
  have hnd : (l₁ ++ p :: l₂).Nodup := h.split ▸ h.area.lists.nodup_svrs
  refine ⟨⟨harea, rfl, h.selfKept.dropped hd.toDropped, fun q hq => ?_,
    hQ h.area hp hs hd h.holds⟩, hcur⟩
  have hqp : q ≠ p := by
    rintro rfl
    exact (List.nodup_append'.mp hnd).2.2 hq List.mem_cons_self
  rw [hd.chmpx_eq, if_neg hqp]
  exact h.stays q hq

/-- The second phase from a cursor on leaves the servers that stay. -/
theorem updateRemoveLoop_rule (hQ : RemoveKeeps Q env cfg eqfd selfchmpxid) (l₂ : List Ptr) :
    ∀ (l₁ : List Ptr) (p : Ptr) (m : ChmpxMan) (a : Placement) (fuel : Nat) (topoflist : Bool),
      Removing Q env cfg selfchmpxid m a l₁ (p :: l₂) → l₂.length + 2 ≤ fuel →
      (topoflist = true ↔ l₁ = []) →
      ∃ a', Removing Q env cfg selfchmpxid
        (updateRemoveLoop env cfg eqfd selfchmpxid fuel (some p) topoflist m) a' a'.svrs [] := by
  induction l₂ with
  | nil =>
    intro l₁ p m a fuel topoflist h hfuel htop
    obtain ⟨fuel, rfl⟩ : ∃ k, fuel = k + 2 := ⟨fuel - 2, by simp at hfuel; omega⟩
    have hlast : ∀ {m a l q}, Removing Q env cfg selfchmpxid m a (l ++ [q]) [] →
        m.toNext q = none := by
      intro m a l q hr
      have hchains := hr.area.chains
      rw [hr.split, List.append_nil] at hchains
      exact hchains.next_of_split
    cases hs : staysListed env cfg selfchmpxid (m.chmpx p) with
    | true =>
      have hkeep := h.keep hs
      rw [updateRemoveLoop_keep _ _ hs, hlast hkeep]
      exact ⟨a, hkeep.done⟩
    | false =>
      obtain ⟨hrem, hcur⟩ := h.remove hQ hs htop rfl
      rw [updateRemoveLoop_remove _ _ hs, hcur]
      -- The cursor goes back to the last server that stayed.
      cases l₁ using List.reverseRecOn with
      | nil => exact ⟨_, hrem.done⟩
      | append_singleton l₁ z =>
        have hz := hrem.stays z (by simp)
        have hlast' : (none : Option Ptr).or (l₁ ++ [z]).getLast? = some z := by simp
        rw [List.head?_nil, hlast', updateRemoveLoop_keep _ _ hz, hlast hrem]
        exact ⟨_, hrem.done⟩
  | cons q l₂ ih =>
    intro l₁ p m a fuel topoflist h hfuel htop
    rw [List.length_cons] at hfuel
    obtain ⟨fuel, rfl⟩ : ∃ k, fuel = k + 1 := ⟨fuel - 1, by omega⟩
    cases hs : staysListed env cfg selfchmpxid (m.chmpx p) with
    | true =>
      have hchains := h.area.chains
      rw [h.split] at hchains
      have hnext : m.toNext p = some q := hchains.next_of_split
      rw [updateRemoveLoop_keep _ _ hs, hnext]
      exact ih (l₁ ++ [p]) q m a fuel false (h.keep hs) (by omega) (by simp)
    | false =>
      obtain ⟨hrem, hcur⟩ := h.remove hQ hs htop rfl
      have hcur' : (m.retrieve p).1 = some q := hcur
      rw [updateRemoveLoop_remove _ _ hs, hcur']
      exact ih l₁ q _ _ fuel topoflist hrem (by omega) htop

/-- The rule for `UpdateChmpxSvrs` on the placed nodes. -/
theorem updateChmpxSvrs_rule (h : Area m a) (hnames : UpdateNames env cfg m)
    (hlimits : ¬(maxGroupLength ≤ cfg.groupname.length ∨ maxChmpxCount < cfg.maxChmpxCount))
    (hP : UpdateKeeps P env cfg m) (hPQ : ∀ {m a}, P cfg.servers m a → Q m a)
    (hQ : RemoveKeeps Q env cfg eqfd m.keptChmpxId) (hp : P [] m a) :
    ∃ a', Removing Q env cfg m.keptChmpxId (updateChmpxSvrs env cfg eqfd m).2 a'
      a'.svrs [] := by
  obtain ⟨a₁, m₁, hrun, h₁, hp₁, hkept⟩ := updateChmpxSvrLoop_rule hP cfg.servers [] m a rfl h
    hnames id hp
  rw [updateChmpxSvrs, if_neg hlimits, hrun]
  dsimp only
  have hself : SelfKept m₁ m.keptChmpxId := hkept ▸ selfKept_keptChmpxId m₁
  rw [hkept, h₁.servers]
  cases hl : a₁.svrs with
  | nil =>
    have hr : Removing Q env cfg m.keptChmpxId m₁ a₁ [] [] :=
      ⟨h₁, hl, hself, fun q hq => absurd hq List.not_mem_nil, hPQ hp₁⟩
    exact ⟨a₁, hr.done⟩
  | cons p l =>
    have hp : p ∈ a₁.svrs := by rw [hl]; exact List.mem_cons_self
    have hfirst : m₁.getFirstPtr (some p) = some p := by
      have hf := h₁.lists.getFirstPtr_eq hp
      rwa [hl] at hf
    have hlen : a₁.svrs.length ≤ m₁.chmpxCount := h₁.lists.length_le List.mem_cons_self
    rw [hl, List.length_cons] at hlen
    rw [List.head?_cons, hfirst]
    exact updateRemoveLoop_rule hQ l [] p m₁ a₁ _ true
      ⟨h₁, hl, hself, fun q hq => absurd hq List.not_mem_nil, hPQ hp₁⟩ (by omega) (by simp)

/-- The rule for `ReloadConfiguration`, which may refuse the configuration. -/
theorem reloadConfiguration_rule (h : Area m a) (hnames : UpdateNames env cfg m)
    (hP : UpdateKeeps P env cfg m) (hPQ : ∀ {m a}, P cfg.servers m a → Q m a)
    (hQ : RemoveKeeps Q env cfg eqfd m.keptChmpxId)
    (hp : P [] { m with replicaCount := cfg.replicaCount } a) :
    (reloadConfiguration env cfg eqfd m).2 = m ∨
      ∃ a', Removing Q env cfg m.keptChmpxId (reloadConfiguration env cfg eqfd m).2 a'
        a'.svrs [] := by
  rw [reloadConfiguration]
  split
  · exact Or.inl rfl
  · rename_i hlimits
    split
    · exact Or.inl rfl
    · have h' : Area { m with replicaCount := cfg.replicaCount } a :=
        ⟨⟨⟨h.lists.1, h.lists.2, h.lists.3, h.lists.4, h.lists.5, h.lists.6, h.lists.7⟩,
          h.cover, h.slaves, h.self, h.live⟩, h.servers, h.limit⟩
      exact Or.inr (updateChmpxSvrs_rule (P := P) h' hnames hlimits
        ⟨hP.listed, hP.counted, hP.added⟩ hPQ hQ hp)

end ChmpxMan
end Chm
