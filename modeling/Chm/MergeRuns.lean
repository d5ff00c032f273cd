/-
Every queued parameter is answered, in a run whose steps are safe.

Three facts hold in every state: where each parameter is, that the worker is awake or about
to be woken while one is on the list, and that an aborted one cannot come out good.  The way
of a parameter to its answer then goes down in steps of the worker.
-/
import Chm.MergeWorker
import Mathlib.Algebra.GroupWithZero.Nat
import Mathlib.Data.List.GetD
import Mathlib.Data.List.Nodup
import Mathlib.Tactic.Tauto

namespace Chm
namespace MergeWorker

variable {mgetfunc : MergeParam → Nat → MergeRound} {s : MergeWorker} {p : MergeParam}
  {sent created : Bool} {chmpxid : Nat} {op : MergeOp}

/-! ## Where the parameters are -/

/-- The parameters that are neither answered nor off the list for another reason come once. -/
structure Placed (s : MergeWorker) : Prop where
  nodup : (s.params ++ (s.thread.param.toList ++ s.answers.map Prod.fst)).Nodup
  known : ∀ p, p ∈ s.params ∨ s.thread.param = some p ∨ p ∈ s.answers.map Prod.fst ∨
    p ∈ s.aborted → p ∈ s.queued
  placed : ∀ p ∈ s.queued, p ∈ s.params ∨ s.thread.param = some p ∨
    p ∈ s.answers.map Prod.fst ∨ p ∈ s.aborted
  number : ∀ p ∈ s.queued, p.number < s.queued.length
  listed : ∀ p ∈ s.params, p ∉ s.aborted

/-- Nothing moves but the threads and the flag. -/
theorem Placed.still {s' : MergeWorker} (h : Placed s) (hp : s'.params = s.params)
    (ht : s'.thread.param = s.thread.param) (ha : s'.answers = s.answers)
    (hq : s'.queued = s.queued) (hb : s'.aborted = s.aborted) : Placed s' := by
  constructor
  · rw [hp, ht, ha]
    exact h.nodup
  · rw [hp, ht, ha, hq, hb]
    exact h.known
  · rw [hp, ht, ha, hq, hb]
    exact h.placed
  · rw [hq]
    exact h.number
  · rw [hp, hb]
    exact h.listed

theorem request_placed (h : Placed s) : Placed (s.request chmpxid) := by
  rw [request]
  split
  · have hnew : (⟨s.queued.length, chmpxid⟩ : MergeParam) ∉ s.queued := fun hm =>
      Nat.lt_irrefl _ (h.number _ hm)
    have hout : ∀ p, p = ⟨s.queued.length, chmpxid⟩ → ¬ (p ∈ s.params ∨ s.thread.param = some p ∨
        p ∈ s.answers.map Prod.fst ∨ p ∈ s.aborted) := by
      rintro p rfl hp
      exact hnew (h.known _ hp)
    have hnone := hout _ rfl
    constructor
    · show ((s.params ++ [_]) ++ (s.thread.param.toList ++ s.answers.map Prod.fst)).Nodup
      rw [List.append_assoc, List.singleton_append, List.nodup_middle, List.nodup_cons]
      refine ⟨fun hm => hnone ?_, h.nodup⟩
      simp only [List.mem_append, Option.mem_toList] at hm
      tauto
    · intro p hp
      show p ∈ _ :: s.queued
      by_cases he : p = ⟨s.queued.length, chmpxid⟩
      · rw [he]
        exact List.mem_cons_self
      · refine List.mem_cons_of_mem _ (h.known p ?_)
        simpa [he] using hp
    · intro p hp
      rcases List.mem_cons.mp hp with rfl | hp
      · exact Or.inl (List.mem_append_right _ (List.mem_singleton.mpr rfl))
      · rcases h.placed p hp with hp | hp
        · exact Or.inl (List.mem_append_left _ hp)
        · exact Or.inr hp
    · intro p hp
      show p.number < s.queued.length + 1
      rcases List.mem_cons.mp hp with rfl | hp
      · exact Nat.lt_succ_self _
      · exact Nat.lt_succ_of_lt (h.number p hp)
    · intro p hp
      rcases List.mem_append.mp hp with hp | hp
      · exact h.listed p hp
      · rw [List.mem_singleton.mp hp]
        exact fun hm => hnone (Or.inr (Or.inr (Or.inr hm)))
  · exact h

theorem checkThread_placed (h : Placed s) : Placed (s.checkThread created) := by
  rw [checkThread]
  split
  · split
    · rename_i ht
      refine h.still rfl ?_ rfl rfl rfl
      rw [ht]
      cases created <;> rfl
    · rename_i ht
      refine h.still rfl ?_ rfl rfl rfl
      rw [ht]
      cases created <;> rfl
    · exact h.still rfl rfl rfl rfl rfl
  · exact h

theorem abort_placed (h : Placed s) : Placed s.abort := by
  rw [abort]
  split
  · constructor
    · exact (List.nodup_append.mp h.nodup).2.1
    · intro p hp
      apply h.known p
      have hp' : p ∈ ([] : List MergeParam) ∨ s.thread.param = some p ∨
          p ∈ s.answers.map Prod.fst ∨ p ∈ s.params ++ s.aborted := hp
      simp only [List.mem_append, List.not_mem_nil, false_or] at hp'
      tauto
    · intro p hp
      have hplaced := h.placed p hp
      show p ∈ ([] : List MergeParam) ∨ s.thread.param = some p ∨
        p ∈ s.answers.map Prod.fst ∨ p ∈ s.params ++ s.aborted
      simp only [List.mem_append, List.not_mem_nil, false_or]
      tauto
    · exact h.number
    · intro p hp
      cases hp
  · exact h

theorem clearFlag_placed (hempty : s.receiver = .emptied → s.params = []) (h : Placed s) :
    Placed s.clearFlag := by
  rw [clearFlag]
  split
  · rename_i hr
    constructor
    · exact h.nodup
    · intro p hp
      apply h.known p
      have hp' : p ∈ s.params ∨ s.thread.param = some p ∨ p ∈ s.answers.map Prod.fst ∨
          p ∈ s.thread.param.toList ++ s.aborted := hp
      simp only [List.mem_append, Option.mem_toList] at hp'
      tauto
    · intro p hp
      have hplaced := h.placed p hp
      show p ∈ s.params ∨ s.thread.param = some p ∨ p ∈ s.answers.map Prod.fst ∨
        p ∈ s.thread.param.toList ++ s.aborted
      simp only [List.mem_append, Option.mem_toList]
      tauto
    · exact h.number
    · intro p hp
      have hp' : p ∈ s.params := hp
      rw [hempty hr] at hp'
      cases hp'
  · exact h

/-- The worker takes the first parameter. -/
theorem take_placed {params : List MergeParam} (h : Placed s) (hp : s.params = p :: params)
    (ht : s.thread = .take) :
    Placed { s with params := params, thread := .gather p true 0 } := by
  have hperm : (s.params ++ (s.thread.param.toList ++ s.answers.map Prod.fst)).Perm
      (params ++ (p :: s.answers.map Prod.fst)) := by
    rw [hp, ht]
    exact List.perm_middle.symm
  have hsame : ∀ q, (q ∈ s.params ∨ s.thread.param = some q) ↔ (q ∈ params ∨ some p = some q) := by
    intro q
    rw [hp, ht, List.mem_cons, Option.some.injEq]
    show (q = p ∨ q ∈ params) ∨ none = some q ↔ q ∈ params ∨ p = q
    simp only [reduceCtorEq, or_false]
    rw [or_comm, eq_comm]
  constructor
  · exact hperm.nodup_iff.mp h.nodup
  · intro q hq
    apply h.known q
    rw [← or_assoc, hsame q, or_assoc]
    exact hq
  · intro q hq
    have hplaced := h.placed q hq
    rw [← or_assoc, hsame q, or_assoc] at hplaced
    exact hplaced
  · exact h.number
  · intro q hq
    apply h.listed q
    rw [hp]
    exact List.mem_cons_of_mem _ hq

/-- The worker answers the parameter in its hand. -/
theorem send_placed {result : Bool} (h : Placed s) (ht : s.thread = .send p result) :
    Placed { s with thread := .loop, answers := (p, result) :: s.answers } := by
  have hsame : ∀ q, (s.thread.param = some q ∨ q ∈ s.answers.map Prod.fst) ↔
      (none = some q ∨ q ∈ ((p, result) :: s.answers).map Prod.fst) := by
    intro q
    rw [ht, List.map_cons, List.mem_cons]
    show some p = some q ∨ _ ↔ _
    simp only [Option.some.injEq, reduceCtorEq, false_or, eq_comm]
  constructor
  · have hnodup := h.nodup
    rw [ht] at hnodup
    exact hnodup
  · intro q hq
    apply h.known q
    have hq' : q ∈ s.params ∨ none = some q ∨ q ∈ ((p, result) :: s.answers).map Prod.fst ∨
      q ∈ s.aborted := hq
    have hmem := hsame q
    tauto
  · intro q hq
    have hplaced := h.placed q hq
    show q ∈ s.params ∨ none = some q ∨ q ∈ ((p, result) :: s.answers).map Prod.fst ∨
      q ∈ s.aborted
    have hmem := hsame q
    tauto
  · exact h.number
  · exact h.listed

theorem work_placed (h : Placed s) (hsafe : StepSafe s (.work sent)) :
    Placed (s.work mgetfunc sent) := by
  rw [work]
  cases ht : s.thread with
  | none => exact h
  | exited => exact h
  | loop =>
    refine h.still rfl ?_ rfl rfl rfl
    rw [ht]
    cases s.notify <;> rfl
  | take =>
    cases hp : s.params with
    | nil =>
      refine h.still hp.symm ?_ rfl rfl rfl
      rw [ht]
      rfl
    | cons p params => exact take_placed h hp ht
  | gather p result round =>
    refine h.still rfl ?_ rfl rfl rfl
    rw [ht]
    cases s.notify <;> rfl
  | fetch p result round =>
    refine h.still rfl ?_ rfl rfl rfl
    rw [ht]
    cases hr : (mgetfunc p round).isLast <;> simp [hr] <;> rfl
  | answer p result =>
    refine h.still rfl ?_ rfl rfl rfl
    rw [ht]
    rfl
  | send p result =>
    have hsent : sent = true := by
      apply hsafe p
      · rw [ht]
        rfl
      · rw [ht]
        cases result <;> simp
    rw [hsent]
    exact send_placed h ht
  | left =>
    refine h.still rfl ?_ rfl rfl rfl
    rw [ht]
    rfl

/-! ## The worker is awake -/

/-- While a parameter is on the list the flag is set, and the worker is on its way to it or
the receiver has yet to look for the worker. -/
structure Awake (s : MergeWorker) : Prop where
  flag : s.params ≠ [] → s.notify = true
  awake : s.params ≠ [] → s.receiver = .stacked ∨ s.thread.active = true
  emptied : s.receiver = .emptied → s.params = []

theorem request_awake (h : Awake s) : Awake (s.request chmpxid) := by
  rw [request]
  split
  · constructor
    · exact fun _ => rfl
    · exact fun _ => Or.inl rfl
    · intro hr
      cases hr
  · exact h

theorem checkThread_awake (h : Awake s) (hsafe : StepSafe s (.checkThread created)) :
    Awake (s.checkThread created) := by
  rw [checkThread]
  split
  · rename_i hr
    obtain ⟨hleft, hcreated⟩ := hsafe hr
    split
    · rename_i ht
      rw [hcreated (Or.inl ht)]
      exact ⟨h.flag, fun _ => Or.inr rfl, by simp⟩
    · rename_i ht
      rw [hcreated (Or.inr ht)]
      exact ⟨h.flag, fun _ => Or.inr rfl, by simp⟩
    · rename_i hnone hexited
      refine ⟨h.flag, fun _ => Or.inr ?_, by simp⟩
      show s.thread.active = true
      cases ht : s.thread with
      | none => exact absurd ht hnone
      | exited => exact absurd ht hexited
      | left => exact absurd ht hleft
      | loop | take | gather | fetch | answer | send => rfl
  · exact h

theorem abort_awake (h : Awake s) : Awake s.abort := by
  rw [abort]
  split
  · exact ⟨fun hp => absurd rfl hp, fun hp => absurd rfl hp, fun _ => rfl⟩
  · exact h

theorem clearFlag_awake (h : Awake s) : Awake s.clearFlag := by
  rw [clearFlag]
  split
  · rename_i hr
    have hempty := h.emptied hr
    exact ⟨fun hp => absurd hempty hp, fun hp => absurd hempty hp, fun _ => hempty⟩
  · exact h

/-- A step of the worker that goes on, or that has nothing to do. -/
theorem Awake.moved (h : Awake s) {thread : MergeThread}
    (ht : s.params ≠ [] → s.thread.active = true → thread.active = true) :
    Awake { s with thread := thread } := by
  refine ⟨h.flag, fun hp => ?_, h.emptied⟩
  rcases h.awake hp with hr | ha
  · exact Or.inl hr
  · exact Or.inr (ht hp ha)

theorem work_awake (h : Awake s) : Awake (s.work mgetfunc sent) := by
  rw [work]
  cases ht : s.thread with
  | none => exact h
  | exited => exact h
  | loop =>
    apply h.moved
    intro hp _
    rw [h.flag hp]
    rfl
  | take =>
    cases hp : s.params with
    | nil =>
      have hleft : Awake { s with thread := .left } := h.moved fun hne => absurd hp hne
      rw [hp] at hleft
      exact hleft
    | cons p params =>
      have hne : s.params ≠ [] := by simp [hp]
      refine ⟨fun _ => h.flag hne, fun _ => Or.inr rfl, fun hr => ?_⟩
      exact absurd (h.emptied hr) hne
  | gather p result round =>
    apply h.moved
    intro _ _
    cases s.notify <;> rfl
  | fetch p result round =>
    apply h.moved
    intro _ _
    cases (mgetfunc p round).isLast <;> rfl
  | answer p result => exact h.moved fun _ _ => rfl
  | send p result =>
    have hloop : Awake { s with thread := .loop } := h.moved fun _ _ => rfl
    exact ⟨hloop.flag, hloop.awake, hloop.emptied⟩
  | left =>
    apply h.moved
    intro _ ha
    rw [ht] at ha
    cases ha

/-! ## What is aborted does not come out good -/

structure Stopped (s : MergeWorker) : Prop where
  answers : ∀ p ∈ s.aborted, (p, true) ∉ s.answers
  undecided : ∀ x ∈ s.thread.undecided, x.2 = true → x.1 ∈ s.aborted → s.notify = false
  send : ∀ p, s.thread = .send p true → p ∉ s.aborted

theorem param_of_undecided {t : MergeThread} {x : MergeParam × Bool} (hx : x ∈ t.undecided) :
    t.param = some x.1 := by
  cases t with
  | gather | fetch | answer =>
    obtain rfl := Option.some.inj hx
    rfl
  | send | none | loop | take | left | exited => cases hx

/-- What is in the worker's hand is neither on the list nor answered. -/
theorem Placed.inHand (h : Placed s) (hp : s.thread.param = some p) :
    p ∉ s.params ∧ ∀ result, (p, result) ∉ s.answers := by
  have hnodup := h.nodup
  rw [hp, Option.toList_some, List.singleton_append, List.nodup_middle, List.nodup_cons,
    List.mem_append, not_or] at hnodup
  refine ⟨hnodup.1.1, fun result hm => hnodup.1.2 ?_⟩
  exact List.mem_map_of_mem hm

theorem Placed.params_unanswered (h : Placed s) (hp : p ∈ s.params) (result : Bool) :
    (p, result) ∉ s.answers := by
  intro hm
  have hdisjoint := (List.nodup_append.mp h.nodup).2.2
  exact hdisjoint p hp p (List.mem_append_right _ (List.mem_map_of_mem hm)) rfl

theorem request_stopped (h : Stopped s) (hsafe : StepSafe s (.request chmpxid)) :
    Stopped (s.request chmpxid) := by
  rw [request]
  split
  · rename_i hr
    refine ⟨h.answers, fun x hx ht ha => ?_, h.send⟩
    exact absurd ha (hsafe hr x hx ht)
  · exact h

theorem checkThread_stopped (h : Stopped s) : Stopped (s.checkThread created) := by
  rw [checkThread]
  split
  · have hnew : Stopped
        { s with thread := if created then .loop else .none, receiver := .idle } := by
      refine ⟨h.answers, fun x hx => ?_, fun p hp => ?_⟩
      · cases created <;> cases hx
      · cases created <;> cases hp
    split
    · exact hnew
    · exact hnew
    · exact ⟨h.answers, h.undecided, h.send⟩
  · exact h

theorem abort_stopped (hplaced : Placed s) (h : Stopped s) : Stopped s.abort := by
  rw [abort]
  split
  · refine ⟨fun p hp => ?_, fun x hx ht ha => ?_, fun p hp ha => ?_⟩
    · rcases List.mem_append.mp hp with hp | hp
      · exact hplaced.params_unanswered hp true
      · exact h.answers p hp
    · rcases List.mem_append.mp ha with ha | ha
      · exact absurd ha (hplaced.inHand (param_of_undecided hx)).1
      · exact h.undecided x hx ht ha
    · have hparam : s.thread.param = some p := by
        rw [show s.thread = .send p true from hp]
        rfl
      rcases List.mem_append.mp ha with ha | ha
      · exact (hplaced.inHand hparam).1 ha
      · exact h.send p hp ha
  · exact h

theorem clearFlag_stopped (hplaced : Placed s) (h : Stopped s) (hsafe : StepSafe s .clearFlag) :
    Stopped s.clearFlag := by
  rw [clearFlag]
  split
  · rename_i hr
    refine ⟨fun p hp => ?_, fun _ _ _ _ => rfl, fun p hp _ => ?_⟩
    · rcases List.mem_append.mp hp with hp | hp
      · exact (hplaced.inHand (Option.mem_toList.mp hp)).2 true
      · exact h.answers p hp
    · have ht : s.thread = .send p true := hp
      refine hsafe hr p ?_ ht
      rw [ht]
      rfl
  · exact h

/-- The worker has the parameter of before, with a result no better. -/
theorem Stopped.moved (h : Stopped s) {thread : MergeThread}
    (hu : ∀ x ∈ thread.undecided, x.2 = true → x ∈ s.thread.undecided)
    (hs : ∀ p, thread ≠ .send p true) : Stopped { s with thread := thread } :=
  ⟨h.answers, fun x hx ht => h.undecided x (hu x hx ht) ht, fun p hp => absurd hp (hs p)⟩

theorem Stopped.free (h : Stopped s) {thread : MergeThread} (hp : thread.param = none) :
    Stopped { s with thread := thread } := by
  apply h.moved
  · intro x hx
    have hx' := param_of_undecided hx
    rw [hp] at hx'
    cases hx'
  · rintro p rfl
    cases hp

theorem work_stopped (hplaced : Placed s) (h : Stopped s) : Stopped (s.work mgetfunc sent) := by
  rw [work]
  cases ht : s.thread with
  | none => exact h
  | exited => exact h
  | loop =>
    apply h.free
    cases s.notify <;> rfl
  | take =>
    cases hp : s.params with
    | nil =>
      have hleft : Stopped { s with thread := .left } := h.free rfl
      rw [hp] at hleft
      exact hleft
    | cons p params =>
      refine ⟨h.answers, fun x hx _ ha => ?_, fun q hq => by cases hq⟩
      obtain rfl := Option.some.inj hx
      exact absurd ha (hplaced.listed p (by rw [hp]; exact List.mem_cons_self))
  | gather p result round =>
    apply h.moved
    · intro x hx _
      rw [ht]
      cases hn : s.notify
      · rw [hn] at hx
        exact hx
      · rw [hn] at hx
        exact hx
    · intro q
      cases s.notify <;> simp
  | fetch p result round =>
    apply h.moved
    · intro x hx htrue
      rw [ht]
      have hx' : x = (p, result && (mgetfunc p round).result) := by
        cases hr : (mgetfunc p round).isLast
        · rw [hr] at hx
          exact (Option.some.inj hx).symm
        · rw [hr] at hx
          exact (Option.some.inj hx).symm
      subst hx'
      rw [Bool.and_eq_true] at htrue
      rw [htrue.1, htrue.2]
      rfl
    · intro q
      cases (mgetfunc p round).isLast <;> simp
  | answer p result =>
    refine ⟨h.answers, (fun x hx => by cases hx), fun q hq ha => ?_⟩
    injection hq with hpq hres
    subst hpq
    rw [Bool.and_eq_true] at hres
    have hnotify := h.undecided (p, result) (by rw [ht]; rfl) hres.2 ha
    rw [hnotify] at hres
    cases hres.1
  | send p result =>
    refine ⟨fun q hq hm => ?_, (fun x hx => by cases hx), fun q hq => by cases hq⟩
    have hm' : (q, true) ∈ if sent then (p, result) :: s.answers else s.answers := hm
    cases sent with
    | false => exact h.answers q hq hm'
    | true =>
      rcases List.mem_cons.mp hm' with he | hm'
      · obtain ⟨rfl, rfl⟩ := Prod.mk.inj he
        exact h.send q ht hq
      · exact h.answers q hq hm'
  | left => exact h.free rfl

/-! ## The inner loop comes to an end -/

/-- The parameter and the number of the turn of the inner loop. -/
def turn : MergeThread → Option (MergeParam × Nat)
  | .gather p _ round | .fetch p _ round => some (p, round)
  | _ => none

/-- No turn is past the last one. -/
def Bounded (last : MergeParam → Nat) (s : MergeWorker) : Prop :=
  ∀ x ∈ turn s.thread, x.2 ≤ last x.1

variable {last : MergeParam → Nat}

theorem checkThread_bounded (h : Bounded last s) : Bounded last (s.checkThread created) := by
  rw [checkThread]
  split
  · split
    · cases created <;> nofun
    · cases created <;> nofun
    · exact h
  · exact h

/-- A turn that is not the last answer is before the last one. -/
theorem Bounded.turn_lt {result : Bool} {round : Nat}
    (hlast : (mgetfunc p (last p)).isLast = true) (h : Bounded last s)
    (ht : s.thread = .fetch p result round) (hr : (mgetfunc p round).isLast = false) :
    round < last p := by
  have hround : round ≤ last p := h (p, round) (by rw [ht]; rfl)
  refine Nat.lt_of_le_of_ne hround ?_
  rintro rfl
  rw [hlast] at hr
  cases hr

theorem work_bounded (hlast : ∀ p, (mgetfunc p (last p)).isLast = true) (h : Bounded last s) :
    Bounded last (s.work mgetfunc sent) := by
  rw [work]
  cases ht : s.thread with
  | none => exact h
  | exited => exact h
  | loop => cases s.notify <;> nofun
  | take =>
    cases s.params with
    | nil => nofun
    | cons p params =>
      intro x hx
      obtain rfl := Option.some.inj hx
      exact Nat.zero_le _
  | gather p result round =>
    have hround : round ≤ last p := h (p, round) (by rw [ht]; rfl)
    cases hn : s.notify with
    | false => nofun
    | true =>
      intro x hx
      obtain rfl := Option.some.inj hx
      exact hround
  | fetch p result round =>
    dsimp only
    cases hr : (mgetfunc p round).isLast with
    | true => nofun
    | false =>
      intro x hx
      obtain rfl := Option.some.inj hx
      exact h.turn_lt (hlast p) ht hr
  | answer p result => nofun
  | send p result => nofun
  | left => nofun

/-! ## Along a run -/

structure Kept (last : MergeParam → Nat) (s : MergeWorker) : Prop where
  placed : Placed s
  awake : Awake s
  stopped : Stopped s
  bounded : Bounded last s

theorem exec_kept (hlast : ∀ p, (mgetfunc p (last p)).isLast = true) (h : Kept last s)
    (hsafe : StepSafe s op) : Kept last (exec mgetfunc s op) := by
  obtain ⟨hplaced, hawake, hstopped, hbounded⟩ := h
  cases op with
  | request chmpxid =>
    refine ⟨request_placed hplaced, request_awake hawake, request_stopped hstopped hsafe, ?_⟩
    rw [exec, request]
    split <;> exact hbounded
  | checkThread created =>
    exact ⟨checkThread_placed hplaced, checkThread_awake hawake hsafe,
      checkThread_stopped hstopped, checkThread_bounded hbounded⟩
  | abort =>
    refine ⟨abort_placed hplaced, abort_awake hawake, abort_stopped hplaced hstopped, ?_⟩
    rw [exec, abort]
    split <;> exact hbounded
  | clearFlag =>
    refine ⟨clearFlag_placed hawake.emptied hplaced, clearFlag_awake hawake,
      clearFlag_stopped hplaced hstopped hsafe, ?_⟩
    rw [exec, clearFlag]
    split <;> exact hbounded
  | work sent =>
    exact ⟨work_placed hplaced hsafe, work_awake hawake, work_stopped hplaced hstopped,
      work_bounded hlast hbounded⟩

theorem start_kept (last : MergeParam → Nat) : Kept last start := by
  constructor
  · refine ⟨List.nodup_nil, fun p hp => ?_, nofun, nofun, nofun⟩
    rcases hp with hp | hp | hp | hp <;> cases hp
  · exact ⟨fun hp => absurd rfl hp, fun hp => absurd rfl hp, nofun⟩
  · exact ⟨nofun, nofun, nofun⟩
  · nofun

theorem run_kept (hlast : ∀ p, (mgetfunc p (last p)).isLast = true) {ops : Nat → MergeOp}
    (hsafe : ∀ t, StepSafe (run mgetfunc ops t) (ops t)) (t : Nat) :
    Kept last (run mgetfunc ops t) := by
  induction t with
  | zero => exact start_kept last
  | succ t ih => exact exec_kept hlast ih (hsafe t)

/-! ## The way to an answer -/

def threadRank (last : MergeParam → Nat) : MergeThread → Nat
  | .none | .left | .exited => 0
  | .take => 1
  | .loop => 2
  | .send .. => 3
  | .answer .. => 4
  | .fetch p _ round => 2 * (last p - round) + 5
  | .gather p _ round => 2 * (last p - round) + 6

/-- The steps of the worker until it takes a parameter, at most. -/
def rank (last : MergeParam → Nat) (p : MergeParam) (s : MergeWorker) : Nat :=
  threadRank last s.thread +
    ((s.params.takeWhile (· ≠ p)).map fun p => 2 * last p + 7).sum

/-- Each step of the worker outside `take` brings it nearer. -/
theorem work_nearer (sent : Bool) (hlast : ∀ p, (mgetfunc p (last p)).isLast = true)
    (h : Bounded last s) (hactive : s.thread.active = true)
    (hloop : s.thread = .loop → s.notify = true)
    (htake : s.thread ≠ .take) :
    threadRank last (s.work mgetfunc sent).thread < threadRank last s.thread ∧
      (s.work mgetfunc sent).params = s.params ∧
      (s.work mgetfunc sent).thread.active = true := by
  rw [work]
  cases ht : s.thread with
  | none | exited | left =>
    rw [ht] at hactive
    cases hactive
  | take => exact absurd ht htake
  | loop =>
    rw [hloop ht]
    exact ⟨Nat.lt_succ_self 1, rfl, rfl⟩
  | gather p result round =>
    cases hn : s.notify with
    | false =>
      refine ⟨?_, rfl, rfl⟩
      show 4 < 2 * (last p - round) + 6
      omega
    | true =>
      refine ⟨?_, rfl, rfl⟩
      show 2 * (last p - round) + 5 < 2 * (last p - round) + 6
      omega
  | fetch p result round =>
    dsimp only
    cases hr : (mgetfunc p round).isLast with
    | true =>
      refine ⟨?_, rfl, rfl⟩
      show 4 < 2 * (last p - round) + 5
      omega
    | false =>
      have hlt := h.turn_lt (hlast p) ht hr
      refine ⟨?_, rfl, rfl⟩
      show 2 * (last p - (round + 1)) + 6 < 2 * (last p - round) + 5
      omega
  | answer p result => exact ⟨Nat.lt_succ_self 3, rfl, rfl⟩
  | send p result => exact ⟨Nat.lt_succ_self 2, rfl, rfl⟩

/-- What is in the worker's hand stays there until it is answered. -/
theorem work_hand (hp : s.thread.param = some p) (hsafe : StepSafe s (.work sent)) :
    (s.work mgetfunc sent).thread.param = some p ∨
      ∃ result, (p, result) ∈ (s.work mgetfunc sent).answers := by
  rw [work]
  cases ht : s.thread with
  | none | exited | left | loop | take =>
    rw [ht] at hp
    cases hp
  | gather q result round =>
    rw [ht] at hp
    left
    cases s.notify <;> exact hp
  | fetch q result round =>
    rw [ht] at hp
    left
    dsimp only
    cases (mgetfunc q round).isLast <;> exact hp
  | answer q result =>
    rw [ht] at hp
    exact Or.inl hp
  | send q result =>
    have hsent : sent = true := by
      apply hsafe p hp
      rw [ht] at hp ⊢
      obtain rfl := Option.some.inj hp
      cases result <;> simp
    rw [ht] at hp
    obtain rfl := Option.some.inj hp
    right
    rw [hsent]
    exact ⟨result, List.mem_cons_self⟩

/-- The receiver does not touch a worker that is on its way. -/
theorem thread_of_receiver (hop : ∀ sent, op ≠ .work sent) (hactive : s.thread.active = true) :
    (exec mgetfunc s op).thread = s.thread := by
  cases op with
  | request =>
    rw [exec, request]
    split <;> rfl
  | checkThread =>
    rw [exec, checkThread]
    split
    · split
      · rename_i ht
        rw [ht] at hactive
        cases hactive
      · rename_i ht
        rw [ht] at hactive
        cases hactive
      · rfl
    · rfl
  | abort =>
    rw [exec, abort]
    split <;> rfl
  | clearFlag =>
    rw [exec, clearFlag]
    split <;> rfl
  | work sent => exact absurd rfl (hop sent)

theorem takeWhile_append_of_mem {params params' : List MergeParam} (hp : p ∈ params) :
    (params ++ params').takeWhile (· ≠ p) = params.takeWhile (· ≠ p) := by
  induction params with
  | nil => cases hp
  | cons q params ih =>
    by_cases hq : q = p
    · simp [hq]
    · have hmem : p ∈ params := (List.mem_cons.mp hp).resolve_left (Ne.symm hq)
      simpa [hq] using ih hmem

/-- A step is of the receiver or of the worker. -/
theorem receiver_or_work (op : MergeOp) : (∀ sent, op ≠ .work sent) ∨ ∃ sent, op = .work sent := by
  cases op with
  | work sent => exact Or.inr ⟨sent, rfl⟩
  | _ => exact Or.inl fun _ => MergeOp.noConfusion

/-- Nor does it change what is on the list before a parameter, unless it aborts all. -/
theorem params_of_receiver (hop : ∀ sent, op ≠ .work sent) (hp : p ∈ s.params) :
    p ∈ (exec mgetfunc s op).aborted ∨ p ∈ (exec mgetfunc s op).params ∧
      (exec mgetfunc s op).params.takeWhile (· ≠ p) = s.params.takeWhile (· ≠ p) := by
  cases op with
  | request =>
    rw [exec, request]
    split
    · refine Or.inr ⟨List.mem_append_left _ hp, ?_⟩
      exact takeWhile_append_of_mem hp
    · exact Or.inr ⟨hp, rfl⟩
  | checkThread =>
    rw [exec, checkThread]
    split
    · split <;> exact Or.inr ⟨hp, rfl⟩
    · exact Or.inr ⟨hp, rfl⟩
  | abort =>
    rw [exec, abort]
    split
    · exact Or.inl (List.mem_append_left _ hp)
    · exact Or.inr ⟨hp, rfl⟩
  | clearFlag =>
    rw [exec, clearFlag]
    split <;> exact Or.inr ⟨hp, rfl⟩
  | work sent => exact absurd rfl (hop sent)

/-- A step of the worker while a parameter is on the list. -/
theorem work_listed (sent : Bool) (hlast : ∀ p, (mgetfunc p (last p)).isLast = true)
    (h : Kept last s) (hp : p ∈ s.params) (hactive : s.thread.active = true) :
    (s.work mgetfunc sent).thread.param = some p ∨
      (p ∈ (s.work mgetfunc sent).params ∧ (s.work mgetfunc sent).thread.active = true) ∧
        rank last p (s.work mgetfunc sent) < rank last p s := by
  have hne : s.params ≠ [] := List.ne_nil_of_mem hp
  by_cases htake : s.thread = .take
  · rw [rank, rank, work, htake]
    cases hs : s.params with
    | nil => exact absurd hs hne
    | cons q params =>
      by_cases hq : q = p
      · rw [hq]
        exact Or.inl rfl
      · rw [hs] at hp
        have hmem : p ∈ params := (List.mem_cons.mp hp).resolve_left (Ne.symm hq)
        refine Or.inr ⟨⟨hmem, rfl⟩, ?_⟩
        show 2 * (last q - 0) + 6 + ((params.takeWhile (· ≠ p)).map fun p => 2 * last p + 7).sum <
          1 + (((q :: params).takeWhile (· ≠ p)).map fun p => 2 * last p + 7).sum
        rw [List.takeWhile_cons_of_pos (by simpa using hq), List.map_cons, List.sum_cons]
        omega
  · obtain ⟨hlt, hparams, hactive'⟩ := work_nearer sent hlast h.bounded hactive
      (fun _ => h.awake.flag hne) htake
    refine Or.inr ⟨⟨by rw [hparams]; exact hp, hactive'⟩, ?_⟩
    rw [rank, rank, hparams]
    omega

theorem work_asleep (hactive : s.thread.active = false) :
    (s.work mgetfunc sent).params = s.params := by
  rw [work]
  cases ht : s.thread with
  | none | exited | left => rfl
  | loop | take | gather | fetch | answer | send => simp [ht, MergeThread.active] at hactive

theorem active_of_param (hp : s.thread.param = some p) : s.thread.active = true := by
  cases ht : s.thread with
  | none | exited | left | loop | take => simp [ht, MergeThread.param] at hp
  | gather | fetch | answer | send => rfl

/-! ## Every parameter is answered -/

section Runs

open Progress

variable {ops : Nat → MergeOp} (hlast : ∀ p, (mgetfunc p (last p)).isLast = true)
  (hfair : Fair ops) (hsafe : ∀ t, StepSafe (run mgetfunc ops t) (ops t))

include hlast hfair hsafe

/-- The worker wakes up, or is woken when the receiver has looked for it. -/
theorem listed_leads (p : MergeParam) :
    Leads (run mgetfunc ops) (fun s => p ∈ s.params)
      fun s => p ∈ s.aborted ∨ p ∈ s.params ∧ s.thread.active = true := by
  have hstep : ∀ t, (p ∈ (run mgetfunc ops t).params ∧ (run mgetfunc ops t).thread.active = false) →
      (p ∈ (run mgetfunc ops (t + 1)).aborted ∨ p ∈ (run mgetfunc ops (t + 1)).params) := by
    rintro t ⟨hp, hasleep⟩
    show p ∈ (exec mgetfunc (run mgetfunc ops t) (ops t)).aborted ∨
      p ∈ (exec mgetfunc (run mgetfunc ops t) (ops t)).params
    rcases receiver_or_work (ops t) with hop | ⟨sent, hop⟩
    · exact (params_of_receiver hop hp).imp_right And.left
    · rw [hop]
      right
      show p ∈ (work mgetfunc sent _).params
      rw [work_asleep hasleep]
      exact hp
  have hasleep : Leads (run mgetfunc ops) (fun s => p ∈ s.params ∧ s.thread.active = false)
      fun s => p ∈ s.aborted ∨ p ∈ s.params ∧ s.thread.active = true := by
    apply leads_of_rank (fun _ => 0) hfair.receiver
    · intro t hp
      rcases hstep t hp with ha | hp'
      · exact Or.inl (Or.inl ha)
      · cases hactive : (run mgetfunc ops (t + 1)).thread.active with
        | true => exact Or.inl (Or.inr ⟨hp', rfl⟩)
        | false => exact Or.inr ⟨⟨hp', rfl⟩, Nat.le_refl 0⟩
    · rintro t hp ⟨created, hop⟩
      left
      rcases hstep t hp with ha | hp'
      · exact Or.inl ha
      · right
        refine ⟨hp', ?_⟩
        have hkept := (run_kept hlast hsafe (t + 1)).awake
        rcases hkept.awake (List.ne_nil_of_mem hp') with hr | hactive
        · -- The receiver has looked, so it is not before that.
          exfalso
          have hr' : (checkThread created (run mgetfunc ops t)).receiver = .stacked := by
            rw [← hr]
            show _ = (exec mgetfunc (run mgetfunc ops t) (ops t)).receiver
            rw [hop]
            rfl
          rw [checkThread] at hr'
          split at hr'
          · split at hr' <;> cases hr'
          · rename_i hne
            exact hne hr'
        · exact hactive
  intro t hp
  cases hactive : (run mgetfunc ops t).thread.active with
  | true => exact ⟨t, Nat.le_refl t, Or.inr ⟨hp, hactive⟩⟩
  | false => exact hasleep t ⟨hp, hactive⟩

/-- The worker comes to the parameter. -/
theorem awake_leads (p : MergeParam) :
    Leads (run mgetfunc ops) (fun s => p ∈ s.params ∧ s.thread.active = true)
      fun s => p ∈ s.aborted ∨ s.thread.param = some p := by
  have hreceiver : ∀ t, (∀ sent, ops t ≠ .work sent) → p ∈ (run mgetfunc ops t).params →
      (run mgetfunc ops t).thread.active = true →
      p ∈ (run mgetfunc ops (t + 1)).aborted ∨
        (p ∈ (run mgetfunc ops (t + 1)).params ∧
          (run mgetfunc ops (t + 1)).thread.active = true) ∧
          rank last p (run mgetfunc ops (t + 1)) ≤ rank last p (run mgetfunc ops t) := by
    intro t hop hp hactive
    have hthread : (exec mgetfunc (run mgetfunc ops t) (ops t)).thread =
        (run mgetfunc ops t).thread := thread_of_receiver hop hactive
    rcases params_of_receiver hop hp with ha | ⟨hp', hbefore⟩
    · exact Or.inl ha
    · refine Or.inr ⟨⟨hp', ?_⟩, ?_⟩
      · show (exec mgetfunc _ (ops t)).thread.active = true
        rw [hthread]
        exact hactive
      · show rank last p (exec mgetfunc _ (ops t)) ≤ _
        rw [rank, rank, hthread, hbefore]
  apply leads_of_rank (rank last p) hfair.worker
  · rintro t ⟨hp, hactive⟩
    rcases receiver_or_work (ops t) with hop | ⟨sent, hop⟩
    · exact (hreceiver t hop hp hactive).imp_left Or.inl
    · have hwork := work_listed sent hlast (run_kept hlast hsafe t) hp hactive
      rw [run, hop]
      exact hwork.imp Or.inr fun h => ⟨h.1, Nat.le_of_lt h.2⟩
  · rintro t ⟨hp, hactive⟩ ⟨sent, hop⟩
    have hwork := work_listed sent hlast (run_kept hlast hsafe t) hp hactive
    rw [run, hop]
    exact hwork.imp Or.inr And.right

/-- What the worker has in its hand is answered. -/
theorem hand_leads (p : MergeParam) :
    Leads (run mgetfunc ops) (fun s => s.thread.param = some p)
      fun s => ∃ result, (p, result) ∈ s.answers := by
  have hwork : ∀ t sent, ops t = .work sent → (run mgetfunc ops t).thread.param = some p →
      ((run mgetfunc ops (t + 1)).thread.param = some p ∧
          threadRank last (run mgetfunc ops (t + 1)).thread <
            threadRank last (run mgetfunc ops t).thread) ∨
        ∃ result, (p, result) ∈ (run mgetfunc ops (t + 1)).answers := by
    intro t sent hop hp
    have hsent := hsafe t
    rw [hop] at hsent
    obtain ⟨hlt, -, -⟩ := work_nearer sent hlast (run_kept hlast hsafe t).bounded
      (active_of_param hp)
      (fun ht => by rw [ht] at hp; cases hp) (fun ht => by rw [ht] at hp; cases hp)
    rw [run, hop]
    exact (work_hand hp hsent).imp_left fun hp' => ⟨hp', hlt⟩
  apply leads_of_rank (fun s => threadRank last s.thread) hfair.worker
  · intro t hp
    rcases receiver_or_work (ops t) with hop | ⟨sent, hop⟩
    · have hthread : (exec mgetfunc (run mgetfunc ops t) (ops t)).thread =
          (run mgetfunc ops t).thread := thread_of_receiver hop (active_of_param hp)
      right
      rw [run, hthread]
      exact ⟨hp, Nat.le_refl _⟩
    · rcases hwork t sent hop hp with ⟨hp', hlt⟩ | ha
      · exact Or.inr ⟨hp', Nat.le_of_lt hlt⟩
      · exact Or.inl ha
  · rintro t hp ⟨sent, hop⟩
    rcases hwork t sent hop hp with ⟨-, hlt⟩ | ha
    · exact Or.inr hlt
    · exact Or.inl ha

end Runs

/-- In every fair run whose steps are safe, with a merge get function that comes to an end,
each queued parameter is aborted or answered, none twice, and an aborted one never with
success. -/
theorem run_answered (hends : ∀ p, ∃ round, (mgetfunc p round).isLast = true)
    {ops : Nat → MergeOp} (hfair : Fair ops)
    (hsafe : ∀ t, StepSafe (run mgetfunc ops t) (ops t)) :
    AllAnswered (run mgetfunc ops) ∧ ∀ t, AnswersRight (run mgetfunc ops t) := by
  choose last hlast using hends
  constructor
  · intro t p hp
    have hlisted := listed_leads hlast hfair hsafe p
    have hawake := awake_leads hlast hfair hsafe p
    have hhand := hand_leads hlast hfair hsafe p
    have hdone : ∀ t, (run mgetfunc ops t).thread.param = some p → ∃ u, t ≤ u ∧
        (p ∈ (run mgetfunc ops u).aborted ∨
          ∃ result, (p, result) ∈ (run mgetfunc ops u).answers) := by
      intro t ht
      obtain ⟨u, htu, ha⟩ := hhand t ht
      exact ⟨u, htu, Or.inr ha⟩
    rcases (run_kept hlast hsafe t).placed.placed p hp with hp | hp | hp | hp
    · obtain ⟨u, htu, ha | hactive⟩ := hlisted t hp
      · exact ⟨u, htu, Or.inl ha⟩
      · obtain ⟨v, huv, ha | hparam⟩ := hawake u hactive
        · exact ⟨v, Nat.le_trans htu huv, Or.inl ha⟩
        · obtain ⟨w, hvw, hw⟩ := hdone v hparam
          exact ⟨w, Nat.le_trans htu (Nat.le_trans huv hvw), hw⟩
    · exact hdone t hp
    · obtain ⟨⟨q, result⟩, ha, rfl⟩ := List.mem_map.mp hp
      exact ⟨t, Nat.le_refl t, Or.inr ⟨result, ha⟩⟩
    · exact ⟨t, Nat.le_refl t, Or.inl hp⟩
  · intro t
    have hkept := run_kept hlast hsafe t
    refine ⟨?_, hkept.stopped.answers⟩
    exact (List.nodup_append.mp (List.nodup_append.mp hkept.placed.nodup).2.1).2.1

/-! ### Runs that go on for ever -/

instance decStepSafe (s : MergeWorker) : DecidablePred (StepSafe s)
  | .request _ => inferInstanceAs (Decidable (_ → _))
  | .checkThread _ => inferInstanceAs (Decidable (_ → _))
  | .abort => .isTrue trivial
  | .clearFlag => inferInstanceAs (Decidable (_ → _))
  | .work _ => inferInstanceAs (Decidable (∀ p ∈ s.thread.param, _))

/-- Some steps, and then the worker's and the receiver's in turn. -/
def thenTurns (ops : List MergeOp) (t : Nat) : MergeOp :=
  ops.getD t (if t % 2 = 0 then .work true else .checkThread true)

theorem thenTurns_of_le {ops : List MergeOp} {t : Nat} (ht : ops.length ≤ t) :
    thenTurns ops t = if t % 2 = 0 then .work true else .checkThread true :=
  List.getD_eq_default _ _ ht

theorem fair_thenTurns (ops : List MergeOp) : Fair (thenTurns ops) := by
  constructor
  · intro t
    refine ⟨2 * (ops.length + t), by omega, true, ?_⟩
    rw [thenTurns_of_le (by omega), if_pos (by omega)]
  · intro t
    refine ⟨2 * (ops.length + t) + 1, by omega, true, ?_⟩
    rw [thenTurns_of_le (by omega), if_neg (by omega)]

/-- What neither thread changes any more stays. -/
theorem run_settled {ops : List MergeOp} {n : Nat} (hn : ops.length ≤ n)
    (hs : run mgetfunc (thenTurns ops) n = s) (hwork : s.work mgetfunc true = s)
    (hcheck : s.checkThread true = s) (d : Nat) : run mgetfunc (thenTurns ops) (n + d) = s := by
  induction d with
  | zero => exact hs
  | succ d ih =>
    show exec mgetfunc (run mgetfunc (thenTurns ops) (n + d)) (thenTurns ops (n + d)) = s
    rw [ih, thenTurns_of_le (by omega)]
    by_cases ht : (n + d) % 2 = 0
    · rw [if_pos ht]
      exact hwork
    · rw [if_neg ht]
      exact hcheck

/-- Data in the first turn, none in the second. -/
def sampleGet (_ : MergeParam) (round : Nat) : MergeRound := ⟨round = 0, [true], false, 7⟩

/-- A request that is aborted in the worker's hand, with another on the list, and one that
comes after the worker has exited. -/
def sampleMergeOps : List MergeOp :=
  [.request 3, .checkThread true, .work true, .work true, .request 4, .checkThread true,
    .work true, .abort, .clearFlag, .work true, .work true, .work true, .work true, .work true,
    .work true, .request 5]

/-- The second request comes when the worker has seen the empty list. -/
def lostOps : List MergeOp :=
  [.request 3, .checkThread true, .work true, .work true, .work true, .work true, .work true,
    .work true, .work true, .work true, .work true, .work true, .request 4]

/-- It comes before the worker has seen that the first is aborted. -/
def revivedOps : List MergeOp :=
  [.request 3, .checkThread true, .work true, .work true, .abort, .clearFlag, .request 4]

theorem sampleMergeOps_safe (t : Nat) :
    StepSafe (run sampleGet (thenTurns sampleMergeOps) t) (thenTurns sampleMergeOps t) := by
  rcases Nat.lt_or_ge t 60 with hlt | hle
  · revert t
    decide +kernel
  · obtain ⟨d, rfl⟩ := Nat.exists_eq_add_of_le hle
    rw [run_settled (by decide) rfl (by decide +kernel) (by decide +kernel),
      thenTurns_of_le (by simp [sampleMergeOps]; omega)]
    split <;> decide +kernel

theorem run_answered_sample :
    AllAnswered (run sampleGet (thenTurns sampleMergeOps)) ∧
      ∀ t, AnswersRight (run sampleGet (thenTurns sampleMergeOps) t) :=
  run_answered (fun _ => ⟨1, rfl⟩) (fair_thenTurns _) sampleMergeOps_safe

/-- The second request is never answered, as no worker is left for it; and a parameter that
was aborted is answered with success. -/
theorem lost_and_revived :
    Fair (thenTurns lostOps) ∧ ¬ AllAnswered (run sampleGet (thenTurns lostOps)) ∧
      Fair (thenTurns revivedOps) ∧
      ¬ AnswersRight (run sampleGet (thenTurns revivedOps) 60) := by
  refine ⟨fair_thenTurns _, fun hall => ?_, fair_thenTurns _, fun hright => ?_⟩
  · obtain ⟨u, hu, hdone⟩ := hall 60 ⟨1, 4⟩ (by decide +kernel)
    obtain ⟨d, rfl⟩ := Nat.exists_eq_add_of_le hu
    rw [run_settled (by decide) rfl (by decide +kernel) (by decide +kernel)] at hdone
    have haborted : (run sampleGet (thenTurns lostOps) 60).aborted = [] := by decide +kernel
    have hanswers : (run sampleGet (thenTurns lostOps) 60).answers = [(⟨0, 3⟩, true)] := by
      decide +kernel
    rw [haborted, hanswers] at hdone
    simp at hdone
  · have hanswer : (⟨0, 3⟩, true) ∈ (run sampleGet (thenTurns revivedOps) 60).answers := by
      decide +kernel
    exact hright.2 ⟨0, 3⟩ (by decide +kernel) hanswer

end MergeWorker
end Chm
