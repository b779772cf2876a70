import Northstar.Proc.SchedulerWakeup

/-! # Round-robin order

Of two threads that stay runnable, the one that was not selected last has its turn: it is in the
ready list while the other one runs, or in front of the other one in that list (`Turn`). A
reschedule appends the thread that has run and takes the first one, so it selects the one whose turn
it is, which gives the turn to the other, or a third thread, which leaves the turn where it is. -/

namespace Northstar

namespace Scheduler

/-- The thread is on the processor, or ready and on the run queue. -/
def Runnable (s : Scheduler) (t : Tid) : Prop :=
  s.current = some t ∨ s.state t = .ready ∧ s.onRunQueue t = true

instance (s : Scheduler) (t : Tid) : Decidable (s.Runnable t) := inferInstanceAs (Decidable (_ ∨ _))

/-- Of the two threads `u` is to be selected next. -/
def Turn (s : Scheduler) (q : Queues) (t u : Tid) : Prop :=
  s.current = some t ∧ s.state t = .running ∧ u ∈ q.ready ∨
    s.current ≠ some t ∧ s.current ≠ some u ∧ [u, t].Sublist q.ready

instance (s : Scheduler) (op : SchedOp) : Decidable (s.Completes op) :=
  match op with
  | .event .reschedule => decidable_of_iff (s.preemptDisableDepth = 0) (by simp [Completes])
  | .event .finish => decidable_of_iff (s.preemptDisableDepth = 0) (by simp [Completes])
  | .event (.add _) | .event (.tick _) | .event .yield | .event (.prepareBlock _ _)
  | .event .commitBlock | .event (.sleepUntil _) | .event (.wake _ _ _) | .event (.wakeThread _)
  | .event .terminateCurrent | .remove _ | .preemptDisable | .preemptEnable =>
    .isFalse (by simp [Completes])

variable {s s' : Scheduler} {q q' : Queues} {t u : Tid}

/-- The turn stays where it is while the ready list grows at its end and nothing else changes. -/
lemma Wakes.turn {target : Option Tid} {woken : List Tid} (h : Wakes target s q s' q' woken)
    (hturn : s.Turn q t u) : s'.Turn q' t u := by
  unfold Turn
  rw [h.current, h.ready]
  rcases hturn with ⟨hcurrent, hrun, hmem⟩ | ⟨ht, hu, hsub⟩
  · have hw : t ∉ woken := fun hw => h.notRunning t hw hrun
    refine .inl ⟨hcurrent, ?_, List.mem_append_left woken hmem⟩
    rw [h.state t, if_neg hw]
    exact hrun
  · exact .inr ⟨ht, hu, hsub.trans (List.sublist_append_left q.ready woken)⟩

/-- Two threads keep their order when a third one leaves the list. -/
lemma sublist_erase_of_ne {l : List Tid} {v : Tid} (hsub : [u, t].Sublist l) (hu : v ≠ u)
    (ht : v ≠ t) : [u, t].Sublist (l.erase v) := by
  have hnot : v ∉ [u, t] := by simp [hu, ht]
  have herase := hsub.erase v
  rw [List.erase_of_not_mem hnot] at herase
  exact herase

/-- At a switch the one whose turn it is stands in front of the other in the queue. -/
lemma Turn.sublist_queue (hturn : s.Turn q t u) (ht : s.idle ≠ some t) :
    [u, t].Sublist (q.ready ++ s.requeued) := by
  rcases hturn with ⟨hcurrent, hrun, hmem⟩ | ⟨-, -, hsub⟩
  · have hrequeued : t ∈ s.requeued := mem_requeued.2 ⟨hcurrent, ht, hrun⟩
    exact (List.singleton_sublist.2 hmem).append (List.singleton_sublist.2 hrequeued)
  · exact hsub.trans (List.sublist_append_left q.ready s.requeued)

end Scheduler

namespace SchedRun

open Scheduler

variable {s s' : Scheduler} {q q' : Queues} {t u : Tid} {op : SchedOp}

/-- A thread that a completed reschedule selects is running. -/
lemma Effect.running_of_completes (h : Effect s q s' q' op) (hc : s.Completes op)
    (hcurrent : s'.current = some t) : s'.state t = .running := by
  obtain ⟨hop, hdepth⟩ := hc
  cases h with
  | still _ _ _ hstill => exact absurd hdepth (hstill hop)
  | switch _ _ _ next _ _ hnext hrun =>
    obtain rfl : next = t := Option.some.inj (hnext.symm.trans hcurrent)
    exact hrun
  | _ => rcases hop with hop | hop <;> cases hop

/-- The step is not one by which the thread stops being runnable. -/
def Spares (s : Scheduler) (t : Tid) (op : SchedOp) : Prop := ¬s.Leaves t op ∧ op ≠ .remove t

/-- A switch selects the thread whose turn it is, or a third thread. -/
lemma Effect.turn_switch (htidy : s.Tidy q) (ht : s.idle ≠ some t)
    (hturn : s.Turn q t u) {next : Tid} {rest : List Tid} (hq : q' = ⟨rest, q.blocked, q.sleep⟩)
    (hcurrent : s'.current = some next) (hrun : s'.state next = .running)
    (hnext : q.ready ++ s.requeued = next :: rest ∨
      q.ready ++ s.requeued = [] ∧ rest = [] ∧ s.idle = some next) :
    s'.Turn q' t u ∧ s'.current ≠ some t ∧ s'.current ≠ some u ∨
      s'.current = some u ∧ s'.Turn q' u t := by
  have hsub := hturn.sublist_queue ht
  have hnodup := (requeue_tidy htidy).1.runs.nodup
  rcases hnext with hqueue | ⟨hempty, -, -⟩
  · rw [hqueue] at hsub
    have hnodup' : (next :: rest).Nodup := hqueue ▸ hnodup
    have hrest : t ∈ rest := by
      rcases List.sublist_cons_iff.1 hsub with htail | ⟨r, hr, htail⟩
      · exact htail.subset (by simp)
      · obtain ⟨-, rfl⟩ := List.cons.inj hr
        exact htail.subset (by simp)
    by_cases hnu : next = u
    · refine .inr ⟨hnu ▸ hcurrent, .inl ⟨hnu ▸ hcurrent, hnu ▸ hrun, ?_⟩⟩
      rw [hq]
      exact hrest
    · have hnt : next ≠ t := by
        rintro rfl
        exact (List.nodup_cons.1 hnodup').1 hrest
      have hcu : s'.current ≠ some u := fun heq => hnu (Option.some.inj (hcurrent.symm.trans heq))
      have hct : s'.current ≠ some t := fun heq => hnt (Option.some.inj (hcurrent.symm.trans heq))
      refine .inl ⟨.inr ⟨hct, hcu, ?_⟩, hct, hcu⟩
      rw [hq]
      rcases List.sublist_cons_iff.1 hsub with htail | ⟨r, hr, -⟩
      · exact htail
      · exact absurd (List.cons.inj hr).1.symm hnu
  · rw [hempty] at hsub
    exact absurd (List.sublist_nil.1 hsub) (List.cons_ne_nil u [t])

/-- A step by which both threads stay runnable leaves the turn where it is and selects neither of
them, or it is a completed reschedule that selects the one whose turn it is. -/
lemma Effect.turn (h : Effect s q s' q' op) (htidy : s.Tidy q)
    (ht : s.idle ≠ some t) (hst : Spares s t op) (hsu : Spares s u op) (hturn : s.Turn q t u) :
    s'.Turn q' t u ∧ (s.Completes op → s'.current ≠ some t ∧ s'.current ≠ some u) ∨
      s.Completes op ∧ s'.current = some u ∧ s'.Turn q' u t := by
  -- a thread that gives up the processor is neither of the two
  have hout : ∀ {v : Tid}, s.current = some v → v ≠ t → v ≠ u →
      s.current ≠ some t ∧ s.current ≠ some u ∧ [u, t].Sublist q.ready := by
    intro v hv hvt hvu
    rcases hturn with ⟨hcurrent, -, -⟩ | hturn
    · exact absurd (Option.some.inj (hv.symm.trans hcurrent)) hvt
    · exact hturn
  cases h with
  | still _ hstill hq hdepth =>
    refine .inl ⟨?_, fun hcompletes => absurd hcompletes.2 (hdepth hcompletes.1)⟩
    unfold Turn
    rw [hstill.current, hstill.state, hq]
    exact hturn
  | add _ _ hwakes => exact .inl ⟨hwakes.turn hturn, fun hc => nomatch hc.1⟩
  | tick _ _ hwakes => exact .inl ⟨hwakes.turn hturn, fun hc => nomatch hc.1⟩
  | wake _ _ _ hwakes =>
    exact .inl ⟨hwakes.turn hturn, fun hc => nomatch hc.1⟩
  | wakeThread _ _ hwakes =>
    exact .inl ⟨hwakes.turn hturn, fun hc => nomatch hc.1⟩
  | block _ _ v hv _ hq _ hcurrent' =>
    refine .inl ⟨.inr ?_, fun hc => nomatch hc.1⟩
    rw [hcurrent', hq]
    exact hout hv (fun hvt => hst.1 (hvt ▸ hv)) fun hvu => hsu.1 (hvu ▸ hv)
  | sleep _ v _ hv _ hq _ _ hcurrent' =>
    refine .inl ⟨.inr ?_, fun hc => nomatch hc.1⟩
    rw [hcurrent', hq]
    exact hout hv (fun hvt => hst.1 (hvt ▸ hv)) fun hvu => hsu.1 (hvu ▸ hv)
  | terminate v hv _ hq _ hcurrent' =>
    refine .inl ⟨.inr ?_, fun hc => nomatch hc.1⟩
    rw [hcurrent', hq]
    exact hout hv (fun hvt => hst.1 (hvt ▸ hv)) fun hvu => hsu.1 (hvu ▸ hv)
  | resume v hv hmem hq _ hcurrent' =>
    refine .inl ⟨.inr ?_, fun hc => nomatch hc.1⟩
    rw [hcurrent', hq]
    rcases hturn with ⟨hcurrent, hrun, -⟩ | ⟨hct, hcu, hsub⟩
    · -- a thread that runs is not in the ready list
      obtain rfl : v = t := Option.some.inj (hv.symm.trans hcurrent)
      rw [(htidy.ready v hmem).2] at hrun
      cases hrun
    · exact ⟨hct, hcu, sublist_erase_of_ne hsub (fun hvu => hcu (hvu ▸ hv)) fun hvt =>
        hct (hvt ▸ hv)⟩
  | remove v hq hstill =>
    have hvt : v ≠ t := fun hvt => hst.2 (hvt ▸ rfl)
    have hvu : v ≠ u := fun hvu => hsu.2 (hvu ▸ rfl)
    refine .inl ⟨?_, fun hc => nomatch hc.1⟩
    unfold Turn
    rw [hstill.current, hstill.state, hq]
    exact hturn.imp (And.imp_right (And.imp_right fun hmem =>
      (List.mem_erase_of_ne hvu.symm).2 hmem))
      (And.imp_right (And.imp_right fun hsub => sublist_erase_of_ne hsub hvu hvt))
  | switch event hevent hdepth next rest hq hcurrent hrun hnext =>
    have hcompletes : s.Completes (.event event) :=
      ⟨hevent.imp (congrArg SchedOp.event) (congrArg SchedOp.event), hdepth⟩
    exact (Effect.turn_switch htidy ht hturn hq hcurrent hrun hnext).imp
      (fun hkept => ⟨hkept.1, fun _ => hkept.2⟩) fun hselected => ⟨hcompletes, hselected⟩

instance (s : Scheduler) (t : Tid) (op : SchedOp) : Decidable (Spares s t op) :=
  match op with
  | .remove u =>
    decidable_of_iff (u ≠ t) (by simp [Spares, Scheduler.Leaves])
  | .event event =>
    decidable_of_iff (¬s.Leaves t (.event event)) (by simp [Spares])
  | .preemptDisable | .preemptEnable => .isTrue (by simp [Spares, Scheduler.Leaves])

/-- A step that its thread may take and by which both threads stay runnable. -/
def StaysRunnable (t u : Tid) (r : SchedRun) (op : SchedOp) : Prop :=
  r.AllowsOp op ∧ Spares r.sched t op ∧ Spares r.sched u op

/-- The step is a completed reschedule that selects the thread. -/
def Selects (t : Tid) (r : SchedRun) (op : SchedOp) : Prop :=
  r.sched.Completes op ∧ (r.stepOp op).sched.current = some t

instance (t u : Tid) (r : SchedRun) (op : SchedOp) : Decidable (r.StaysRunnable t u op) :=
  inferInstanceAs (Decidable (_ ∧ _ ∧ _))

instance (t : Tid) (r : SchedRun) (op : SchedOp) : Decidable (r.Selects t op) :=
  inferInstanceAs (Decidable (_ ∧ _))

/-- How often a thread is selected in a run. -/
def selections (t : Tid) : SchedRun → List SchedOp → ℕ
  | _, [] => 0
  | r, op :: ops => (if r.Selects t op then 1 else 0) + selections t (r.stepOp op) ops

variable {r : SchedRun} {ops : List SchedOp}

/-- A step that does not select the thread is not counted. -/
lemma selections_cons_of_not (h : ¬r.Selects t op) (ops : List SchedOp) :
    selections t r (op :: ops) = selections t (r.stepOp op) ops := by
  rw [selections, if_neg h, Nat.zero_add]

/-- A step that selects the thread is counted. -/
lemma selections_cons_of_selects (h : r.Selects t op) (ops : List SchedOp) :
    selections t r (op :: ops) = selections t (r.stepOp op) ops + 1 := by
  rw [selections, if_pos h, Nat.add_comm]

/-- The lists are in order, and of the two threads, neither of which is the idle one, `u` is to be
selected next. -/
def Ordered (t u : Tid) (r : SchedRun) : Prop :=
  ∃ q, r.Tidy q ∧ r.sched.Turn q t u ∧ r.sched.idle ≠ some t ∧ r.sched.idle ≠ some u

/-- A step keeps the order of two threads, or it selects the first one, which is then the second. -/
lemma Ordered.step (h : r.Ordered t u) (hop : r.StaysRunnable t u op) :
    (r.stepOp op).Ordered t u ∧ ¬r.Selects t op ∧ ¬r.Selects u op ∨
      r.Selects u op ∧ (r.stepOp op).Ordered u t := by
  obtain ⟨q, htidy, hturn, ht, hu⟩ := h
  obtain ⟨hallows, hst, hsu⟩ := hop
  obtain ⟨q', htidy', heffect⟩ := htidy.step hallows
  have ht' : (r.stepOp op).sched.idle ≠ some t := heffect.idle_eq ▸ ht
  have hu' : (r.stepOp op).sched.idle ≠ some u := heffect.idle_eq ▸ hu
  rcases heffect.turn htidy.sched ht hst hsu hturn with ⟨hkept, hneither⟩ | ⟨hc, hcurrent, hswapped⟩
  · exact .inl ⟨⟨q', htidy', hkept, ht', hu'⟩, fun hsel => (hneither hsel.1).1 hsel.2,
      fun hsel => (hneither hsel.1).2 hsel.2⟩
  · exact .inr ⟨⟨hc, hcurrent⟩, q', htidy', hswapped, hu', ht'⟩

/-- As long as the thread whose turn it is is not selected, the other one is not either. -/
lemma Ordered.kept (h : r.Ordered u t)
    (hops : AllSteps stepOp (StaysRunnable t u) r ops) (hnone : selections t r ops = 0) :
    (ops.foldl stepOp r).Ordered u t ∧ selections u r ops = 0 := by
  induction ops generalizing r with
  | nil => exact ⟨h, rfl⟩
  | cons op ops ih =>
    obtain ⟨⟨hallows, hst, hsu⟩, hrest⟩ := hops
    rcases h.step ⟨hallows, hsu, hst⟩ with ⟨hkept, hu, ht⟩ | ⟨hselects, -⟩
    · rw [selections_cons_of_not ht] at hnone
      rw [selections_cons_of_not hu]
      exact ih hkept hrest hnone
    · rw [selections_cons_of_selects hselects] at hnone
      exact absurd hnone (Nat.succ_ne_zero _)

/-- In a run that does not select `t`, it stays the turn of `u`, or `u` is selected once. -/
lemma Ordered.run (h : r.Ordered t u)
    (hops : AllSteps stepOp (StaysRunnable t u) r ops) (hnone : selections t r ops = 0) :
    (ops.foldl stepOp r).Ordered t u ∨
      (ops.foldl stepOp r).Ordered u t ∧ selections u r ops = 1 := by
  induction ops generalizing r with
  | nil => exact .inl h
  | cons op ops ih =>
    obtain ⟨hop, hrest⟩ := hops
    rcases h.step hop with ⟨hkept, ht, hu⟩ | ⟨hselects, hswapped⟩
    · rw [selections_cons_of_not ht] at hnone
      rw [selections_cons_of_not hu]
      exact ih hkept hrest hnone
    · have hnone' : selections t (r.stepOp op) ops = 0 := by
        exact Nat.eq_zero_of_add_eq_zero_left hnone
      obtain ⟨hend, hzero⟩ := hswapped.kept hrest hnone'
      refine .inr ⟨hend, ?_⟩
      rw [selections_cons_of_selects hselects, hzero]

/-- Between two consecutive selections of `t` by `ns_sched_reschedule`, a thread `u` that stays
runnable, as `t` does, is selected exactly once. -/
theorem round_robin_order (idle : Tid) (quantumTicks : ℕ) (published flagged : Tid → Bool)
    (t u : Tid) (hne : t ≠ u) (ht : t ≠ idle) (before between : List SchedOp)
    (first second : SchedOp)
    (hbefore : AllSteps stepOp AllowsOp (start idle quantumTicks published flagged)
      (before ++ [first]))
    (hfirst : (before.foldl stepOp (start idle quantumTicks published flagged)).Selects t first)
    (hrunnable : ((before ++ [first]).foldl stepOp
      (start idle quantumTicks published flagged)).sched.Runnable u)
    (hbetween : AllSteps stepOp (StaysRunnable t u) ((before ++ [first]).foldl stepOp
      (start idle quantumTicks published flagged)) (between ++ [second]))
    (hnone : selections t ((before ++ [first]).foldl stepOp
      (start idle quantumTicks published flagged)) between = 0)
    (hsecond : ((before ++ first :: between).foldl stepOp
      (start idle quantumTicks published flagged)).Selects t second) :
    selections u ((before ++ [first]).foldl stepOp (start idle quantumTicks published flagged))
      between = 1 := by
  obtain ⟨q₀, htidy₀⟩ := tidy_start idle quantumTicks published flagged
  obtain ⟨hops, hallows, -⟩ := allSteps_append.1 hbefore
  obtain ⟨⟨q, htidy⟩, hidle⟩ := htidy₀.run hops
  simp only [List.foldl_append, List.foldl_cons,
    List.foldl_nil] at hrunnable hbetween hnone hsecond ⊢
  generalize before.foldl stepOp (start idle quantumTicks published flagged) = r
    at htidy hidle hallows hfirst hrunnable hbetween hnone hsecond ⊢
  have hstart : (r.stepOp first).Ordered t u := by
    obtain ⟨q', htidy', heffect⟩ := htidy.step hallows
    have hcurrent := hfirst.2
    have hready : u ∈ q'.ready := by
      rcases hrunnable with hu | hu
      · exact absurd (Option.some.inj (hcurrent.symm.trans hu)) hne
      · exact (htidy'.sched.onQueue u).1 hu.2
    refine ⟨q', htidy', .inl ⟨hcurrent, heffect.running_of_completes hfirst.1 hcurrent, hready⟩, ?_,
      htidy'.sched.ne_idle (htidy'.sched.ready u hready).1⟩
    rw [heffect.idle_eq, hidle]
    exact fun heq => ht (Option.some.inj heq).symm
  obtain ⟨hsteps, hlast, -⟩ := allSteps_append.1 hbetween
  rcases hstart.run hsteps hnone with hturn | ⟨-, hone⟩
  · -- it would be the turn of `u` when `t` is selected
    rcases hturn.step hlast with ⟨-, hnot, -⟩ | ⟨hselects, -⟩
    · exact absurd hsecond hnot
    · exact absurd (Option.some.inj (hsecond.2.symm.trans hselects.2)) hne
  · exact hone

/-- Thread 2 has its turn between two turns of thread 1, and so has thread 3. -/
theorem round_robin_order_three :
    selections 2 (([SchedOp.event (.add 1), .event (.add 2), .event (.add 3)] ++
      [SchedOp.event .reschedule]).foldl stepOp (start 0 5 (fun _ => false) fun _ => false))
      [.event (.tick 1), .event .reschedule, .event .yield, .event .finish] = 1 :=
  round_robin_order 0 5 (fun _ => false) (fun _ => false) 1 2 (by decide) (by decide)
    [.event (.add 1), .event (.add 2), .event (.add 3)]
    [.event (.tick 1), .event .reschedule, .event .yield, .event .finish] (.event .reschedule)
    (.event .reschedule) (by decide) (by decide) (by decide) (by decide) (by decide) (by decide)

end SchedRun

end Northstar
