import Northstar.Proc.SchedulerQueues

/-! # No lost wakeup

A thread that has prepared to block is in the blocked list, with its kind and key, until it is
woken. So `ns_sched_wake` finds it there whether or not it has committed, and whether or not it has
been switched away from. A thread that was woken becomes blocked, sleeping or a zombie only by a
call of its own. -/

namespace Northstar

open Function List

/-- Among the first `n` elements that satisfy `p` is `t`, if fewer than `n` of those in front of it
do. -/
lemma mem_take_filter {α : Type} [DecidableEq α] {p : α → Bool} {t : α} {l : List α} (n : ℕ)
    (ht : t ∈ l) (hp : p t = true) (hcount : (l.takeWhile fun u => decide (u ≠ t)).countP p < n) :
    t ∈ (l.filter p).take n := by
  induction l generalizing n with
  | nil => exact absurd ht not_mem_nil
  | cons x l ih =>
    by_cases hx : x = t
    · subst hx
      obtain ⟨k, rfl⟩ := Nat.exists_eq_succ_of_ne_zero (Nat.ne_of_gt (Nat.zero_lt_of_lt hcount))
      rw [filter_cons_of_pos hp, take_succ_cons]
      exact mem_cons_self
    · have hl : t ∈ l := (mem_cons.1 ht).resolve_left (Ne.symm hx)
      rw [takeWhile_cons_of_pos (by simpa using hx)] at hcount
      by_cases hpx : p x = true
      · rw [countP_cons_of_pos hpx] at hcount
        obtain ⟨k, rfl⟩ := Nat.exists_eq_succ_of_ne_zero (Nat.ne_of_gt (Nat.zero_lt_of_lt hcount))
        rw [filter_cons_of_pos hpx, take_succ_cons]
        exact mem_cons_of_mem x (ih k hl (Nat.lt_of_succ_lt_succ hcount))
      · rw [countP_cons_of_neg hpx] at hcount
        rw [filter_cons_of_neg hpx]
        exact ih n hl hcount

namespace Scheduler

/-- The thread calls for a block, a sleep or its own end. -/
def Leaves (s : Scheduler) (t : Tid) : SchedOp → Prop
  | .event (.prepareBlock _ _) | .event (.sleepUntil _) | .event .terminateCurrent =>
    s.current = some t
  | _ => False

/-- The maximum lets `ns_sched_wake` come to the thread: fewer than `maximum` of the threads in
front of it in the blocked list wait for the event. -/
def WithinReach (s : Scheduler) (kind : WaitKind) (key maximum : ℕ) (t : Tid) : Prop :=
  ∀ blocked, s.blocked.Lists blocked →
    (blocked.takeWhile fun u => decide (u ≠ t)).countP (fun u => s.Awaits kind key u) < maximum

/-- The thread is ready or running. -/
def Awake (s : Scheduler) (t : Tid) : Prop := s.state t = .ready ∨ s.state t = .running

instance (s : Scheduler) (t : Tid) : (op : SchedOp) → Decidable (s.Leaves t op)
  | .event (.prepareBlock _ _) | .event (.sleepUntil _) | .event .terminateCurrent =>
    inferInstanceAs (Decidable (s.current = some t))
  | .event (.add _) | .event (.tick _) | .event .yield | .event .commitBlock | .event (.wake _ _ _)
  | .event (.wakeThread _) | .event .reschedule | .event .finish => .isFalse id
  | .remove _ | .preemptDisable | .preemptEnable => .isFalse id

/-- The thread is awake, or it waits for the event in the blocked list. -/
def Waiting (s : Scheduler) (q : Queues) (kind : WaitKind) (key : ℕ) (t : Tid) : Prop :=
  s.Awake t ∨ s.state t = .blocked ∧ t ∈ q.blocked ∧ s.Awaits kind key t

variable {s s' : Scheduler} {q q' : Queues} {t : Tid} {kind : WaitKind} {key : ℕ}

/-- A thread with few enough waiting ones in front of it is within reach of a wake. -/
lemma withinReach_of_lists {l : List Tid} {maximum : ℕ} (h : s.blocked.Lists l)
    (hcount : (l.takeWhile fun u => decide (u ≠ t)).countP
      (fun u => s.Awaits kind key u) < maximum) : s.WithinReach kind key maximum t := by
  intro l' h'
  rw [Follows.unique h' h]
  exact hcount

variable {target : Option Tid}

/-- A thread was woken, or its state is as before. -/
lemma Wakes.state_cases {woken : List Tid} (h : Wakes target s q s' q' woken) (t : Tid) :
    s'.state t = .ready ∨ t ∉ woken ∧ s'.state t = s.state t := by
  rw [h.state t]
  by_cases hw : t ∈ woken
  · exact .inl (if_pos hw)
  · exact .inr ⟨hw, if_neg hw⟩

/-- Waking threads keeps a thread waiting or awake. -/
lemma Wakes.waiting_kept {woken : List Tid}
    (h : Wakes target s q s' q' woken) (hwaiting : s.Waiting q kind key t) :
    s'.Waiting q' kind key t := by
  rcases h.state_cases t with hready | ⟨hw, hsame⟩
  · exact .inl (.inl hready)
  · unfold Waiting Awake Awaits
    obtain ⟨hkind, hkey⟩ := h.waiting t hw
    rw [hsame, hkind, hkey]
    exact hwaiting.imp_right (And.imp_right (And.imp_left fun hb => h.kept t hb hw))

end Scheduler

namespace SchedRun

open Scheduler

variable {s s' : Scheduler} {q q' : Queues} {t : Tid} {op : SchedOp} {kind : WaitKind} {key : ℕ}

/-- A step that is not a call of the thread to leave leaves its state alone, or makes it awake. -/
lemma Effect.state_cases (h : Effect s q s' q' op) (hop : ¬s.Leaves t op) :
    s'.state t = s.state t ∨ s'.Awake t := by
  have hother : ∀ {u : Tid} {x : ThreadState}, u ≠ t → s'.state = update s.state u x →
      s'.state t = s.state t := fun hne hstate => by
    rw [hstate, update_of_ne hne.symm]
  have hwoken : ∀ {target : Option Tid} {woken : List Tid}, Wakes target s q s' q' woken →
      s'.state t = s.state t ∨ s'.Awake t := fun hwakes =>
    (hwakes.state_cases t).elim (fun hready => .inr (.inl hready)) fun hsame => .inl hsame.2
  cases h with
  | still _ hstill => exact .inl (congrFun hstill.state t)
  | add u woken hwakes => exact hwoken hwakes
  | tick nowNs woken hwakes => exact hwoken hwakes
  | wake kind key maximum hwakes => exact hwoken hwakes
  | wakeThread u woken hwakes => exact hwoken hwakes
  | block _ _ u hcurrent _ _ hstate => exact .inl (hother (fun hut => hop (hut ▸ hcurrent)) hstate)
  | sleep _ u _ hcurrent _ _ _ hstate =>
      exact .inl (hother (fun hut => hop (hut ▸ hcurrent)) hstate)
  | terminate u hcurrent _ _ hstate => exact .inl (hother (fun hut => hop (hut ▸ hcurrent)) hstate)
  | resume u _ _ _ hstate =>
    by_cases hut : u = t
    · exact .inr (.inr (by rw [hstate, hut, update_self]))
    · exact .inl (hother hut hstate)
  | remove u _ hstill => exact .inl (congrFun hstill.state t)
  | switch _ _ _ _ _ _ _ _ _ hswitched => exact hswitched.state t

/-- A thread that waits for the event in the blocked list does so until it is awake. -/
lemma Effect.waiting (h : Effect s q s' q' op) (hop : ¬s.Leaves t op) (hremove : op ≠ .remove t)
    (hwaiting : s.Waiting q kind key t) : s'.Waiting q' kind key t := by
  have hstate := h.state_cases hop
  rcases hwaiting with hawake | ⟨hblocked, hmem, hawaits⟩
  · refine .inl (hstate.elim (fun hsame => ?_) id)
    unfold Awake
    rw [hsame]
    exact hawake
  have hkept : t ∈ q'.blocked → s'.waitKind t = s.waitKind t → s'.waitKey t = s.waitKey t →
      s'.Waiting q' kind key t := by
    intro hmem' hkind hkey
    refine hstate.elim (fun hsame => .inr ⟨hsame.trans hblocked, hmem', ?_⟩) .inl
    unfold Awaits
    rw [hkind, hkey]
    exact hawaits
  have hwoken : ∀ {target : Option Tid} {woken : List Tid}, Wakes target s q s' q' woken →
      s'.Waiting q' kind key t := fun hwakes =>
    hwakes.waiting_kept (.inr ⟨hblocked, hmem, hawaits⟩)
  cases h with
  | still _ hstill hq =>
    exact hkept (hq ▸ hmem) (congrFun hstill.waitKind t) (congrFun hstill.waitKey t)
  | add u woken hwakes => exact hwoken hwakes
  | tick nowNs woken hwakes => exact hwoken hwakes
  | wake kind key maximum hwakes => exact hwoken hwakes
  | wakeThread u woken hwakes => exact hwoken hwakes
  | block _ _ u hcurrent _ hq _ _ _ hother =>
    obtain ⟨hkind, hkey⟩ := hother t fun htu => hop (htu ▸ hcurrent)
    exact hkept (hq ▸ mem_cons_of_mem u hmem) hkind hkey
  | sleep _ u _ _ _ hq _ _ _ _ hkind hkey =>
    exact hkept (hq ▸ hmem) (congrFun hkind t) (congrFun hkey t)
  | terminate u _ _ hq _ _ _ hkind hkey =>
    exact hkept (hq ▸ hmem) (congrFun hkind t) (congrFun hkey t)
  | resume u _ _ hq _ _ _ hkind hkey =>
    exact hkept (hq ▸ hmem) (congrFun hkind t) (congrFun hkey t)
  | remove u hq hstill =>
    have hne : t ≠ u := fun htu => hremove (htu ▸ rfl)
    exact hkept (hq ▸ (mem_erase_of_ne hne).2 hmem) (congrFun hstill.waitKind t)
      (congrFun hstill.waitKey t)
  | switch _ _ _ _ _ hq _ _ _ hswitched =>
    exact hkept (hq ▸ hmem) (congrFun hswitched.waitKind t) (congrFun hswitched.waitKey t)

/-- A thread that waits for the event is awake after a wake for that event that comes to it. -/
lemma awake_of_wake (h : s.Tidy q) (hkind : kind ≠ .none) {maximum : ℕ}
    (hwaiting : s.Waiting q kind key t) (hreach : s.WithinReach kind key maximum t) :
    (s.nsSchedWake kind key maximum).2.Awake t := by
  obtain ⟨q', hwakes⟩ := nsSchedWake_wakes h kind key maximum
  rw [if_neg hkind] at hwakes
  rcases hwaiting with hawake | ⟨-, hmem, hawaits⟩
  · refine (hwakes.state_cases t).elim .inl fun hsame => ?_
    unfold Awake
    rw [hsame.2]
    exact hawake
  · have hwoken := mem_take_filter maximum hmem (p := fun u => decide (s.Awaits kind key u))
      (decide_eq_true hawaits) (hreach q.blocked h.blocked)
    exact .inl ((hwakes.state t).trans (if_pos hwoken))

/-- A thread that is awake or blocked is awake after a wake by its name. -/
lemma awake_of_wakeThread (h : s.Tidy q) (hstate : s.Awake t ∨ s.state t = .blocked) :
    (s.nsSchedWakeThread t).2.Awake t := by
  obtain ⟨q', woken, hwakes, hwaits, -⟩ := nsSchedWakeThread_wakes h t
  rcases hstate with hawake | hblocked
  · refine (hwakes.state_cases t).elim .inl fun hsame => ?_
    unfold Awake
    rw [hsame.2]
    exact hawake
  · exact .inl ((hwakes.state t).trans (if_pos (hwaits (.inl hblocked))))

/-- A step that its thread may take and that is not a call of thread `t` to leave. -/
def StaysOn (t : Tid) (r : SchedRun) (op : SchedOp) : Prop := r.AllowsOp op ∧ ¬r.sched.Leaves t op

instance (t : Tid) (r : SchedRun) (op : SchedOp) : Decidable (r.StaysOn t op) :=
  inferInstanceAs (Decidable (_ ∧ _))

/-- The lists are in order, and a thread is awake or blocked. -/
def Following (t : Tid) (r : SchedRun) : Prop :=
  ∃ q, r.Tidy q ∧ (r.sched.Awake t ∨ r.sched.state t = .blocked)

variable {r : SchedRun}

/-- A step that the thread does not leave by keeps it awake or blocked. -/
lemma Following.step (h : r.Following t) (hop : r.StaysOn t op) : (r.stepOp op).Following t := by
  obtain ⟨q, htidy, hstate⟩ := h
  obtain ⟨q', htidy', heffect⟩ := htidy.step hop.1
  refine ⟨q', htidy', (heffect.state_cases hop.2).elim (fun hsame => ?_) .inl⟩
  unfold Awake
  rw [hsame]
  exact hstate

/-- A thread that is awake stays so until it calls for a block, a sleep or its own end. -/
lemma awake_step (h : (∃ q, r.Tidy q) ∧ r.sched.Awake t) (hop : r.StaysOn t op) :
    (∃ q, (r.stepOp op).Tidy q) ∧ (r.stepOp op).sched.Awake t := by
  obtain ⟨⟨q, htidy⟩, hawake⟩ := h
  obtain ⟨q', htidy', heffect⟩ := htidy.step hop.1
  refine ⟨⟨q', htidy'⟩, (heffect.state_cases hop.2).elim (fun hsame => ?_) id⟩
  unfold Awake
  rw [hsame]
  exact hawake

/-- A thread that waits in the blocked list does so until it is awake, in every run that does not
remove it. -/
lemma waiting_run {ops : List SchedOp} (hops : AllSteps stepOp (StaysOn t) r ops)
    (hremove : .remove t ∉ ops) (h : ∃ q, r.Tidy q ∧ r.sched.Waiting q kind key t) :
    ∃ q, (ops.foldl stepOp r).Tidy q ∧ (ops.foldl stepOp r).sched.Waiting q kind key t := by
  induction ops generalizing r with
  | nil => exact h
  | cons op ops ih =>
    rw [mem_cons, not_or] at hremove
    obtain ⟨q, htidy, hwaiting⟩ := h
    obtain ⟨q', htidy', heffect⟩ := htidy.step hops.1.1
    exact ih hops.2 hremove.2
      ⟨q', htidy', heffect.waiting hops.1.2 (Ne.symm hremove.1) hwaiting⟩

/-- The thread that runs prepares to block. -/
lemma Tidy.prepared (h : r.Tidy q) (hfree : r.Free) (hcurrent : r.sched.current = some t)
    (hidle : r.sched.idle ≠ some t) (hkind : kind ≠ .none) (key : ℕ) :
    ∃ q', (r.step (.prepareBlock kind key)).Tidy q' ∧
      (r.step (.prepareBlock kind key)).sched.state t = .blocked ∧ t ∈ q'.blocked ∧
      (r.step (.prepareBlock kind key)).sched.Awaits kind key t := by
  rcases nsSchedPrepareBlock_cases h.sched kind key (h.out_of_free hfree) with
    ⟨-, hnone | hidle'⟩ | ⟨u, hmoved, hawaits, -⟩
  · exact absurd hnone hkind
  · exact absurd (hidle' t hcurrent) hidle
  · obtain rfl : u = t := Option.some.inj (hmoved.current.symm.trans hcurrent)
    refine ⟨_, ⟨hmoved.tidy, fun v hv _ => .inr (.inr (.inl ?_))⟩, hmoved.state_current hcurrent,
      mem_cons_self, hawaits⟩
    have hv' : r.sched.current = some v := hmoved.rest.current.symm.trans hv
    exact ⟨mark_current hv' _ _, .inl (hmoved.state_current hv')⟩

/-- In every run in which a thread prepares to block, and later a wake for its kind and key that
comes to it or a wake by its name follows, the thread is ready or running from the wake on until it
calls for a block, a sleep or its own end. Between the two anything may happen but that the thread
calls so (and, for the wake by kind and key, that it is removed from the list). -/
theorem no_lost_wakeup (idle : Tid) (quantumTicks : ℕ) (published flagged : Tid → Bool) (t : Tid)
    (kind : WaitKind) (key : ℕ) (before between after : List SchedOp) (wake : SchedOp)
    (hbefore : AllSteps stepOp AllowsOp (start idle quantumTicks published flagged)
      (before ++ [SchedOp.event (.prepareBlock kind key)]))
    (hcurrent : (before.foldl stepOp
      (start idle quantumTicks published flagged)).sched.current = some t)
    (hidle : t ≠ idle) (hkind : kind ≠ .none)
    (hbetween : AllSteps stepOp (StaysOn t)
      ((before ++ [SchedOp.event (.prepareBlock kind key)]).foldl stepOp
        (start idle quantumTicks published flagged)) between)
    (hwake : wake = .event (.wakeThread t) ∨ SchedOp.remove t ∉ between ∧
      ∃ maximum, wake = .event (.wake kind key maximum) ∧
        ((before ++ SchedOp.event (.prepareBlock kind key) :: between).foldl stepOp
          (start idle quantumTicks published flagged)).sched.WithinReach kind key maximum t)
    (hafter : AllSteps stepOp (StaysOn t)
      ((before ++ SchedOp.event (.prepareBlock kind key) :: between ++ [wake]).foldl stepOp
        (start idle quantumTicks published flagged)) after) :
    ((before ++ SchedOp.event (.prepareBlock kind key) :: between ++ wake :: after).foldl stepOp
      (start idle quantumTicks published flagged)).sched.Awake t := by
  obtain ⟨q₀, htidy₀⟩ := tidy_start idle quantumTicks published flagged
  obtain ⟨hops, hprepare, -⟩ := allSteps_append.1 hbefore
  obtain ⟨⟨q, htidy⟩, hsame⟩ := htidy₀.run hops
  have hidle' : (before.foldl stepOp (start idle quantumTicks published flagged)).sched.idle ≠
      some t := fun heq => hidle (Option.some.inj (heq.symm.trans hsame))
  simp only [foldl_append, foldl_cons, foldl_nil] at hbetween hwake hafter ⊢
  generalize before.foldl stepOp (start idle quantumTicks published flagged) = r
    at htidy hcurrent hidle' hprepare hbetween hwake hafter ⊢
  obtain ⟨q₁, htidy₁, hblocked, hmem, hawaits⟩ := htidy.prepared hprepare hcurrent hidle' hkind key
  have hawake : (∃ q', ((between.foldl stepOp (r.stepOp (.event (.prepareBlock kind key)))).stepOp
      wake).Tidy q') ∧ ((between.foldl stepOp
        (r.stepOp (.event (.prepareBlock kind key)))).stepOp wake).sched.Awake t := by
    rcases hwake with rfl | ⟨hremove, maximum, rfl, hreach⟩
    · obtain ⟨q₂, htidy₂, hstate⟩ := hbetween.last (Following t) (fun _ _ h hc => h.step hc)
        ⟨q₁, htidy₁, .inr hblocked⟩
      have hop : (between.foldl stepOp (r.stepOp (.event (.prepareBlock kind key)))).AllowsOp
        (.event (.wakeThread t)) := trivial
      obtain ⟨q₃, htidy₃, -⟩ := htidy₂.step hop
      exact ⟨⟨q₃, htidy₃⟩, awake_of_wakeThread htidy₂.sched hstate⟩
    · obtain ⟨q₂, htidy₂, hwaiting⟩ := waiting_run hbetween hremove
        ⟨q₁, htidy₁, .inr ⟨hblocked, hmem, hawaits⟩⟩
      have hop : (between.foldl stepOp (r.stepOp (.event (.prepareBlock kind key)))).AllowsOp
        (.event (.wake kind key maximum)) := trivial
      obtain ⟨q₃, htidy₃, -⟩ := htidy₂.step hop
      exact ⟨⟨q₃, htidy₃⟩, awake_of_wake htidy₂.sched hkind hwaiting hreach⟩
  exact (hafter.last (fun r => (∃ q, r.Tidy q) ∧ r.sched.Awake t)
    (fun _ _ h hc => awake_step h hc) hawake).2

/-- Thread 1 prepares to wait on a pipe, is preempted, and is woken before it has committed. -/
theorem no_lost_wakeup_preempted :
    (([SchedOp.event (.add 1), .event (.add 2), .event .reschedule] ++
      SchedOp.event (.prepareBlock .pipeRead 7) :: [SchedOp.event (.tick 3), .event .reschedule] ++
      SchedOp.event (.wake .pipeRead 7 1) ::
        [SchedOp.event .reschedule, .event .commitBlock]).foldl stepOp
      (start 0 5 (fun _ => false) fun _ => false)).sched.Awake 1 :=
  no_lost_wakeup 0 5 (fun _ => false) (fun _ => false) 1 .pipeRead 7
    [.event (.add 1), .event (.add 2), .event .reschedule] [.event (.tick 3), .event .reschedule]
    [.event .reschedule, .event .commitBlock] (.event (.wake .pipeRead 7 1)) (by decide) (by decide)
    (by decide) (by decide) (by decide)
    (.inr ⟨by simp, 1, rfl, withinReach_of_lists (l := [1]) ⟨rfl, rfl⟩ (by decide)⟩) (by decide)

end SchedRun

end Northstar
