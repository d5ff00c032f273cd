/-
What a key of the GLOBAL section looks at and what it writes.

Most keys say the same wherever they stand.  `REPLICA` looks at the delivery mode and the maximum
read so far, and the values that are only right with SSL look at `SSL`.  `GlobalKey.readLook` reads
a value with what it looks at taken from outside, and then each key writes fields of its own.
-/
import Chm.Lib.Reorder
import Chm.YamlLoad

namespace Chm
namespace Conf

open Along

/-! ## Keys -/

/-- A key with its value. -/
abbrev YamlEntry := YamlNode × YamlNode

/-- The key and the value of an entry that has no other nodes than these two texts. -/
def textsOf : YamlEntry → Option (CStr × CStr)
  | (.scalar key, .scalar value) => some (key, value)
  | _ => none

/-- What the key of an entry is to a section. -/
def keyOf {κ : Type} (ofText : CStr → Option κ) (e : YamlEntry) : Option κ :=
  (textsOf e).bind fun texts => ofText texts.1

/-- One key to the loader. -/
def sameKey : YamlNode → YamlNode → Prop
  | .scalar a, .scalar b => eqNoCase a b = true
  | a, b => a = b

/-- No key comes twice. -/
def DistinctKeys (es : List YamlEntry) : Prop := es.Pairwise fun a b => ¬sameKey a.1 b.1

/-- There is nothing under the empty key, which the loader takes for no key. -/
def Keyed (es : List YamlEntry) : Prop := ∀ value, (.scalar [], .scalar value) ∈ es → value = []

theorem eqNoCase_symm {a b : CStr} (h : eqNoCase a b = true) : eqNoCase b a = true := by
  rw [eqNoCase, beq_iff_eq] at h ⊢
  exact h.symm

theorem sameKey_symm {a b : YamlNode} (h : sameKey a b) : sameKey b a := by
  cases a with
  | scalar a =>
    cases b with
    | scalar b => exact eqNoCase_symm h
    | _ => cases h
  | _ =>
    obtain rfl : _ = b := h
    rfl

theorem DistinctKeys.perm {es es' : List YamlEntry} (h : DistinctKeys es) (hperm : es.Perm es') :
    DistinctKeys es' :=
  hperm.pairwise h fun hne hsame => hne (sameKey_symm hsame)

instance : Std.Symm fun a b : YamlEntry => ¬sameKey a.1 b.1 :=
  ⟨fun _ _ hne hsame => hne (sameKey_symm hsame)⟩

theorem DistinctKeys.eq_of_sameKey {es : List YamlEntry} (h : DistinctKeys es) {a b : YamlEntry}
    (ha : a ∈ es) (hb : b ∈ es) (hsame : sameKey a.1 b.1) : a = b := by
  by_contra hne
  exact h.forall ha hb hne hsame

theorem Keyed.perm {es es' : List YamlEntry} (h : Keyed es) (hperm : es.Perm es') : Keyed es' :=
  fun value hmem => h value (hperm.mem_iff.mpr hmem)

theorem textsOf_eq_some {e : YamlEntry} {key value : CStr} (h : textsOf e = some (key, value)) :
    e = (.scalar key, .scalar value) := by
  obtain ⟨k, v⟩ := e
  cases k with
  | scalar k =>
    cases v with
    | scalar v =>
      cases h
      rfl
    | _ => cases h
  | _ => cases h

/-- Entries that have one key of a table have one key to the loader. -/
theorem sameKey_of_keyOf {κ : Type} (table : List (String × κ)) {ofText : CStr → Option κ}
    (hofText : ∀ text, ofText text = (table.find? fun ent => eqNoCase (cstr ent.1) text).map (·.2))
    (htable : (table.map (·.2)).Nodup) {e e' : YamlEntry} {key : κ}
    (h : keyOf ofText e = some key) (h' : keyOf ofText e' = some key) : sameKey e.1 e'.1 := by
  obtain ⟨⟨text, value⟩, htexts, htext⟩ := Option.bind_eq_some_iff.mp h
  obtain ⟨⟨text', value'⟩, htexts', htext'⟩ := Option.bind_eq_some_iff.mp h'
  rw [hofText] at htext htext'
  obtain ⟨ent, hent, rfl⟩ := Option.map_eq_some_iff.mp htext
  obtain ⟨ent', hent', heq⟩ := Option.map_eq_some_iff.mp htext'
  obtain rfl := List.inj_on_of_nodup_map htable (List.mem_of_find?_eq_some hent')
    (List.mem_of_find?_eq_some hent) heq
  have hfound := List.find?_some hent
  have hfound' := List.find?_some hent'
  rw [eqNoCase, beq_iff_eq] at hfound hfound'
  rw [textsOf_eq_some htexts, textsOf_eq_some htexts', sameKey, eqNoCase, beq_iff_eq]
  exact hfound.symm.trans hfound'

/-! ## What a key looks at -/

/-- What the keys so far say of the values that other keys look at. -/
structure Seen where
  isSsl : Bool
  isRandomMode : Bool
  maxChmpxCount : Int
  deriving DecidableEq, Repr

namespace Seen

/-- Before the first key. -/
def fresh : Seen := ⟨false, false, 1024⟩

/-- Behind a key with its value. -/
def after (s : Seen) (key : GlobalKey) (value : CStr) : Seen :=
  match key with
  | .ssl => { s with isSsl := boolValue value == some true }
  | .deliverMode => { s with isRandomMode := eqNoCase value (cstr "random") }
  | .maxChmpx => { s with maxChmpxCount := limited (1024 * 32) value }
  | _ => s

/-- Behind an entry. -/
def next (s : Seen) (e : YamlEntry) : Seen :=
  match textsOf e with
  | none => s
  | some (key, value) =>
    match GlobalKey.ofText key with
    | none => s
    | some key => s.after key value

end Seen

/-- What is seen of the values read so far. -/
def Loading.seen (l : Loading) : Seen :=
  ⟨l.ccv.isSsl, l.cfg.isRandomMode, l.cfg.maxChmpxCount⟩

/-- What a key looks at: `SSL`, or the number that is stored for `REPLICA`. -/
inductive Look
  | nothing
  | ssl (isOn : Bool)
  | replica (count : Int)
  deriving DecidableEq, Repr

namespace GlobalKey

/-- The value is right with SSL and wrong without it. -/
def needsSsl (env : LoadEnv) (key : GlobalKey) (value : CStr) : Bool :=
  match key with
  | sslVerifyPeer => boolValue value == some true
  | serverCert | serverPrikey => !isNullStr value && (certValue env value).isSome
  | sslMinVer => !isNullStr value && (chmCvtSsltlsVer value).any (· ≠ 0)
  | nssdbDir => !isNullStr value && value.length < chmMaxPathLen && env.isDirExist value
  | _ => false

/-- What the key looks at behind the keys that are seen. -/
def look (env : LoadEnv) (s : Seen) (key : GlobalKey) (value : CStr) : Look :=
  if key = replica then .replica (if s.isRandomMode then 0 else limited s.maxChmpxCount value)
  else if key.needsSsl env value then .ssl s.isSsl
  else .nothing

/-- The value of a key, read with what the key looks at. -/
def readLook (env : LoadEnv) (key : GlobalKey) (value : CStr) (look : Look) (l : Loading) :
    Option Loading :=
  match look with
  | .nothing => key.read env value l
  | .ssl isOn => (key.read env value { l with ccv.isSsl := isOn }).map fun l' =>
      { l' with ccv.isSsl := l.ccv.isSsl }
  | .replica count => some { l with cfg.replicaCount := count }

end GlobalKey

/-- What an entry looks at. -/
def entryLook (env : LoadEnv) (s : Seen) (e : YamlEntry) : Look :=
  match textsOf e with
  | none => .nothing
  | some (key, value) =>
    match GlobalKey.ofText key with
    | none => .nothing
    | some key => key.look env s value

/-- The entries of a section, each with what it looks at. -/
def looks (env : LoadEnv) : Seen → List YamlEntry → List (YamlEntry × Look)
  | _, [] => []
  | s, e :: es => (e, entryLook env s e) :: looks env (s.next e) es

/-- Each key looks at the same in both orders. -/
def SameLooks (env : LoadEnv) (es es' : List YamlEntry) : Prop :=
  (looks env .fresh es).Perm (looks env .fresh es')

/-! ## What a key writes -/

/-- The fields of some keys from one record, and all other ones from another. -/
def Loading.blend (own : GlobalKey → Bool) (l₀ l : Loading) : Loading where
  cfg := { l.cfg with
    groupname := if own .group then l₀.cfg.groupname else l.cfg.groupname
    revision := if own .version then l₀.cfg.revision else l.cfg.revision
    isServerMode := if own .mode then l₀.cfg.isServerMode else l.cfg.isServerMode
    chmpxidType := if own .chmpxidType then l₀.cfg.chmpxidType else l.cfg.chmpxidType
    isRandomMode := if own .deliverMode then l₀.cfg.isRandomMode else l.cfg.isRandomMode
    maxChmpxCount := if own .maxChmpx then l₀.cfg.maxChmpxCount else l.cfg.maxChmpxCount
    replicaCount := if own .replica then l₀.cfg.replicaCount else l.cfg.replicaCount
    maxServerMqCnt := if own .maxMqServer then l₀.cfg.maxServerMqCnt else l.cfg.maxServerMqCnt
    maxClientMqCnt := if own .maxMqClient then l₀.cfg.maxClientMqCnt else l.cfg.maxClientMqCnt
    mqcntPerAttach := if own .mqPerAttach then l₀.cfg.mqcntPerAttach else l.cfg.mqcntPerAttach
    maxQPerServermq :=
      if own .maxQPerServerMq then l₀.cfg.maxQPerServermq else l.cfg.maxQPerServermq
    maxQPerClientmq :=
      if own .maxQPerClientMq then l₀.cfg.maxQPerClientmq else l.cfg.maxQPerClientmq
    maxMqPerClient := if own .maxMqPerClient then l₀.cfg.maxMqPerClient else l.cfg.maxMqPerClient
    maxHistlogCount := if own .maxHistlog then l₀.cfg.maxHistlogCount else l.cfg.maxHistlogCount
    date := if own .date then l₀.cfg.date else l.cfg.date
    selfCtlport := if own .selfCtlport then l₀.cfg.selfCtlport else l.cfg.selfCtlport
    selfCuk := if own .selfCuk then l₀.cfg.selfCuk else l.cfg.selfCuk
    retrycnt := if own .retryCnt then l₀.cfg.retrycnt else l.cfg.retrycnt
    mqRetrycnt := if own .mqRetryCnt then l₀.cfg.mqRetrycnt else l.cfg.mqRetrycnt
    mqAck := if own .mqAck then l₀.cfg.mqAck else l.cfg.mqAck
    timeoutWaitSocket :=
      if own .rwTimeout then l₀.cfg.timeoutWaitSocket else l.cfg.timeoutWaitSocket
    timeoutWaitConnect :=
      if own .conTimeout then l₀.cfg.timeoutWaitConnect else l.cfg.timeoutWaitConnect
    timeoutWaitMq := if own .mqRwTimeout then l₀.cfg.timeoutWaitMq else l.cfg.timeoutWaitMq
    isAutoMerge := if own .autoMerge then l₀.cfg.isAutoMerge else l.cfg.isAutoMerge
    isDoMerge := if own .doMerge then l₀.cfg.isDoMerge else l.cfg.isDoMerge
    timeoutMerge := if own .mergeTimeout then l₀.cfg.timeoutMerge else l.cfg.timeoutMerge
    sockThreadCnt := if own .sockThreadCnt then l₀.cfg.sockThreadCnt else l.cfg.sockThreadCnt
    mqThreadCnt := if own .mqThreadCnt then l₀.cfg.mqThreadCnt else l.cfg.mqThreadCnt
    maxSockPool := if own .maxSockPool then l₀.cfg.maxSockPool else l.cfg.maxSockPool
    sockPoolTimeout :=
      if own .sockPoolTimeout then l₀.cfg.sockPoolTimeout else l.cfg.sockPoolTimeout
    sslMinVer := if own .sslMinVer then l₀.cfg.sslMinVer else l.cfg.sslMinVer
    nssdbDir := if own .nssdbDir then l₀.cfg.nssdbDir else l.cfg.nssdbDir
    k2hFullmap := if own .k2hFullmap then l₀.cfg.k2hFullmap else l.cfg.k2hFullmap
    k2hMaskBitcnt := if own .k2hMaskBit then l₀.cfg.k2hMaskBitcnt else l.cfg.k2hMaskBitcnt
    k2hCmaskBitcnt := if own .k2hCmaskBit then l₀.cfg.k2hCmaskBitcnt else l.cfg.k2hCmaskBitcnt
    k2hMaxElement := if own .k2hMaxEle then l₀.cfg.k2hMaxElement else l.cfg.k2hMaxElement }
  ccv := { l.ccv with
    serverMode := if own .mode then l₀.ccv.serverMode else l.ccv.serverMode
    port := if own .port then l₀.ccv.port else l.ccv.port
    ctlport := if own .ctlport then l₀.ccv.ctlport else l.ccv.ctlport
    isSsl := if own .ssl then l₀.ccv.isSsl else l.ccv.isSsl
    verifyPeer := if own .sslVerifyPeer then l₀.ccv.verifyPeer else l.ccv.verifyPeer
    isCaFile := if own .capath then l₀.ccv.isCaFile else l.ccv.isCaFile
    capath := if own .capath then l₀.ccv.capath else l.ccv.capath
    serverCert := if own .serverCert then l₀.ccv.serverCert else l.ccv.serverCert
    serverPrikey := if own .serverPrikey then l₀.ccv.serverPrikey else l.ccv.serverPrikey
    slaveCert := if own .slaveCert then l₀.ccv.slaveCert else l.ccv.slaveCert
    slavePrikey := if own .slavePrikey then l₀.ccv.slavePrikey else l.ccv.slavePrikey }

theorem Loading.blend_comm {own own' : GlobalKey → Bool}
    (h : ∀ key, own key = true → own' key = false) (l₀ l₀' l : Loading) :
    blend own l₀ (blend own' l₀' l) = blend own' l₀' (blend own l₀ l) := by
  simp only [blend, ite_swap h]

/-- The fields of the key, if there is one. -/
def Loading.put (own : Option GlobalKey) : Loading → Loading → Loading :=
  blend fun key => own = some key


namespace GlobalKey
variable {env : LoadEnv} {key : GlobalKey} {value : CStr}

/-- A value that needs SSL is stored when `SSL` is `ON` so far, and wrong otherwise. -/
theorem read_of_needsSsl (h : key.needsSsl env value = true) (l₀ : Loading) :
    ∃ l₁, ∀ l, key.read env value l =
      if l.ccv.isSsl then some (Loading.put (some key) l₁ l) else none := by
  have hgate : ∀ {b : Bool} {r r' : Option Loading}, r = r' →
      (if !b then none else r) = if b then r' else none := by
    intro b r r' heq
    cases b with
    | false => rfl
    | true => exact heq
  cases key
  case sslVerifyPeer =>
    rw [needsSsl, beq_iff_eq] at h
    exact ⟨{ l₀ with ccv.verifyPeer := true }, fun l => by
      rw [read, h]
      exact hgate rfl⟩
  case serverCert =>
    rw [needsSsl, Bool.and_eq_true, Bool.not_eq_true'] at h
    obtain ⟨cert, hcert⟩ := Option.isSome_iff_exists.mp h.2
    exact ⟨{ l₀ with ccv.serverCert := cert }, fun l => by
      rw [read, h.1, hcert]
      exact hgate rfl⟩
  case serverPrikey =>
    rw [needsSsl, Bool.and_eq_true, Bool.not_eq_true'] at h
    obtain ⟨cert, hcert⟩ := Option.isSome_iff_exists.mp h.2
    exact ⟨{ l₀ with ccv.serverPrikey := cert }, fun l => by
      rw [read, h.1, hcert]
      exact hgate rfl⟩
  case sslMinVer =>
    rw [needsSsl, Bool.and_eq_true, Bool.not_eq_true', Option.any_eq_true] at h
    obtain ⟨hnull, ssver, hssver, hne⟩ := h
    exact ⟨{ l₀ with cfg.sslMinVer := ssver }, fun l => by
      rw [read, hnull, if_neg Bool.false_ne_true, hssver]
      dsimp only
      cases l.ccv.isSsl with
      | false => exact if_pos ⟨of_decide_eq_true hne, rfl⟩
      | true => exact if_neg fun hoff => Bool.noConfusion hoff.2⟩
  case nssdbDir =>
    rw [needsSsl, Bool.and_eq_true, Bool.and_eq_true, Bool.not_eq_true', decide_eq_true_eq] at h
    obtain ⟨⟨hnull, hlen⟩, hdir⟩ := h
    exact ⟨{ l₀ with cfg.nssdbDir := value }, fun l => by
      rw [read, hnull, hdir, if_neg Bool.false_ne_true, if_neg (Nat.not_le.mpr hlen),
        Bool.not_true, if_neg Bool.false_ne_true]
      exact hgate rfl⟩
  all_goals exact absurd h Bool.false_ne_true

/-- Any other value but the one of `REPLICA` looks at nothing. -/
theorem read_writes (hreplica : key ≠ replica) (h : key.needsSsl env value = false)
    (l₀ : Loading) : WritesOnly Loading.put (some key) (key.read env value) := by
  have hputs : ∀ {f : Loading → Loading}, (∀ l, f l = Loading.put (some key) (f l₀) l) →
      WritesOnly Loading.put (some key) fun l => some (f l) :=
    fun {f} h => .puts (f l₀) fun l => congrArg some (h l)
  have hmap : ∀ {β : Type} {o : Option β} {f : β → Loading → Loading},
      (∀ b l, f b l = Loading.put (some key) (f b l₀) l) →
        WritesOnly Loading.put (some key) fun l => o.map fun b => f b l := by
    intro β o f h
    cases o with
    | none => exact .fails fun l => rfl
    | some b => exact .puts (f b l₀) fun l => congrArg some (h b l)
  have hite : ∀ {c : Prop} [Decidable c] {f g : Loading → Option Loading},
      (c → WritesOnly Loading.put (some key) f) → (¬c → WritesOnly Loading.put (some key) g) →
        WritesOnly Loading.put (some key) fun l => if c then f l else g l := by
    intro c _ f g hf hg
    by_cases hc : c
    · simpa only [if_pos hc] using hf hc
    · simpa only [if_neg hc] using hg hc
  have hnone : WritesOnly Loading.put (some key) fun _ => none := .fails fun l => rfl
  have hsome : WritesOnly Loading.put (some key) some := .keeps fun l => rfl
  cases key
  case replica => exact absurd rfl hreplica
  case mode =>
    exact hite (fun _ => hputs fun l => rfl) fun _ =>
      hite (fun _ => hputs fun l => rfl) fun _ => hnone
  case deliverMode =>
    exact hite (fun _ => hputs fun l => rfl) fun _ =>
      hite (fun _ => hputs fun l => rfl) fun _ => hnone
  case selfCtlport => exact hite (fun _ => hputs fun l => rfl) fun _ => hsome
  case selfCuk => exact hite (fun _ => hputs fun l => rfl) fun _ => hsome
  case sslVerifyPeer => 
    cases hvalue : boolValue value with
    | none => exact .fails fun l => by rw [read, hvalue]
    | some b =>
      cases b with
      | false => exact .puts { l₀ with ccv.verifyPeer := false } fun l => by rw [read, hvalue]; rfl
      | true => simp [needsSsl, hvalue] at h
  case capath =>
    refine hite (fun _ => hsome) fun _ => ?_
    cases hfile : capathFile env value with
    | none => exact hnone
    | some isCaFile => exact hite (fun _ => hnone) fun _ => hputs fun l => rfl
  case serverCert =>
    refine hite (fun _ => hsome) fun hnull => ?_
    cases hcert : certValue env value with
    | none => exact .fails fun l => by split <;> rfl
    | some cert => simp [needsSsl, hnull, hcert] at h
  case serverPrikey =>
    refine hite (fun _ => hsome) fun hnull => ?_
    cases hcert : certValue env value with
    | none => exact .fails fun l => by split <;> rfl
    | some cert => simp [needsSsl, hnull, hcert] at h
  case slaveCert => exact hite (fun _ => hsome) fun _ => hmap fun b l => rfl
  case slavePrikey => exact hite (fun _ => hsome) fun _ => hmap fun b l => rfl
  case sslMinVer =>
    refine hite (fun _ => hsome) fun hnull => ?_
    cases hssver : chmCvtSsltlsVer value with
    | none => exact hnone
    | some ssver =>
      have hzero : ssver = 0 := by simpa [needsSsl, hnull, hssver] using h
      subst hzero
      exact hputs fun l => rfl
  case nssdbDir =>
    refine hite (fun _ => hsome) fun hnull => hite (fun _ => hnone) fun hlen =>
      hite (fun _ => hnone) fun hdir => ?_
    have hdir' : env.isDirExist value = true := by simpa using hdir
    simp [needsSsl, hnull, Nat.lt_of_not_le hlen, hdir'] at h
  all_goals
    first
    | exact hputs fun l => rfl
    | exact hmap fun b l => rfl

theorem needsSsl_ne (h : key.needsSsl env value = true) : key ≠ replica ∧ key ≠ ssl := by
  constructor <;> rintro rfl <;> exact absurd h Bool.false_ne_true

theorem readLook_ssl (h : key.needsSsl env value = true) (l₀ : Loading) :
    ∃ l₁, ∀ isOn l, key.readLook env value (.ssl isOn) l =
      if isOn then some (Loading.put (some key) l₁ l) else none := by
  obtain ⟨l₁, hread⟩ := read_of_needsSsl h l₀
  refine ⟨l₁, fun isOn l => ?_⟩
  rw [readLook, hread]
  dsimp only
  cases isOn with
  | false => rfl
  | true =>
    rw [if_pos rfl, if_pos rfl, Option.map_some]
    simp [Loading.put, Loading.blend, (needsSsl_ne h).2]

/-- A key reads its value as it does with what it looks at. -/
theorem read_look (key : GlobalKey) (l : Loading) :
    key.read env value l = key.readLook env value (key.look env l.seen value) l := by
  by_cases hreplica : key = replica
  · subst hreplica
    rw [look, if_pos rfl, readLook, read, Loading.seen]
    cases l.cfg.isRandomMode with
    | true => rfl
    | false => rfl
  · rw [look, if_neg hreplica]
    cases hneeds : key.needsSsl env value with
    | false => rfl
    | true =>
      obtain ⟨l₁, hread⟩ := read_of_needsSsl hneeds l
      show key.read env value l = (key.read env value l).map fun l' =>
        { l' with ccv.isSsl := l.ccv.isSsl }
      rw [hread]
      split
      · simp [Loading.put, Loading.blend, (needsSsl_ne hneeds).2]
      · rfl

theorem readLook_writes (env : LoadEnv) (key : GlobalKey) (value : CStr) (s : Seen)
    (l₀ : Loading) :
    WritesOnly Loading.put (some key) (key.readLook env value (key.look env s value)) := by
  by_cases hreplica : key = replica
  · subst hreplica
    rw [look, if_pos rfl]
    exact .puts { l₀ with cfg.replicaCount :=
      if s.isRandomMode then 0 else limited s.maxChmpxCount value } fun l => rfl
  · rw [look, if_neg hreplica]
    cases hneeds : key.needsSsl env value with
    | false => exact read_writes hreplica hneeds l₀
    | true =>
      obtain ⟨l₁, hlook⟩ := readLook_ssl hneeds l₀
      cases hssl : s.isSsl with
      | false => exact .fails (hlook false)
      | true => exact .puts l₁ (hlook true)

end GlobalKey

namespace GlobalKey

variable {env : LoadEnv} {key : GlobalKey} {value : CStr} {l l' : Loading}

theorem read_seen (h : key.read env value l = some l') : l'.seen = l.seen.after key value := by
  cases key
  case ssl =>
    obtain ⟨b, hb, rfl⟩ := Option.map_eq_some_iff.mp h
    rw [Seen.after, hb]
    cases b <;> rfl
  case deliverMode =>
    rw [read] at h
    rw [Seen.after]
    split at h
    · rename_i hrandom
      cases h
      rw [hrandom]
      rfl
    · rename_i hrandom
      split at h
      · cases h
        rw [Bool.not_eq_true _ |>.mp hrandom]
        rfl
      · cases h
  case maxChmpx =>
    cases h
    rfl
  all_goals
    -- The fields that others look at are not among the ones of the key.
    rw [read_look] at h
    cases readLook_writes env _ value l.seen l with
    | fails hfails => exact absurd ((hfails l).symm.trans h) nofun
    | keeps hkeeps =>
      obtain rfl := Option.some.inj ((hkeeps l).symm.trans h)
      rfl
    | puts l₁ hputs =>
      obtain rfl := Option.some.inj ((hputs l).symm.trans h)
      rfl

end GlobalKey

end Conf
end Chm
