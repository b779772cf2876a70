import Northstar.Proc.SchedulerQueues

/-! # Removing a thread

`ns_sched_remove` takes a thread out of the lists and leaves its state alone. The next reschedule
puts the thread that has run at the end of the ready list if its state is `RUNNING`, so the removal
of a running thread is undone by the switch that it asks for. Any other thread stays out of the
lists as long as nobody wakes it by its name while its state still says that it waits, and as long
as it does not go on to wait again before it is switched away from. -/

namespace Northstar

namespace Scheduler

/-- The thread neither runs nor is in a list. -/
def Gone (s : Scheduler) (t : Tid) : Prop :=
  s.current ≠ some t ∧ ∃ q : Queues, s.ready.Runs q.ready ∧ s.blocked.Lists q.blocked ∧
    s.sleep.Lists q.sleep ∧ ¬q.Has t

/-- `ns_sched_remove` is called for a thread that does not run: it is not the idle one, and if it is
the one on the processor it waits or has ended. -/
def Stopped (s : Scheduler) (t : Tid) : Prop :=
  s.idle ≠ some t ∧ (s.current = some t → s.state t ≠ .running)

/-- The step does not bring back a thread that was removed. -/
def Withdrawn (s : Scheduler) (t : Tid) : SchedOp → Prop
  | .event (.add thread) => thread ≠ t
  | .event (.wakeThread thread) => thread = t → s.state t ≠ .blocked ∧ s.state t ≠ .sleeping
  | .event (.prepareBlock _ _) | .event (.sleepUntil _) => s.current ≠ some t
  | _ => True

instance (s : Scheduler) (t : Tid) : Decidable (s.Stopped t) :=
  inferInstanceAs (Decidable (_ ∧ (_ → _)))

instance (s : Scheduler) (t : Tid) : (op : SchedOp) → Decidable (s.Withdrawn t op)
  | .event (.add _) => inferInstanceAs (Decidable (_ ≠ _))
  | .event (.wakeThread _) => inferInstanceAs (Decidable (_ → _ ∧ _))
  | .event (.prepareBlock _ _) | .event (.sleepUntil _) =>
    inferInstanceAs (Decidable (s.current ≠ some t))
  | .event (.tick _) | .event .yield | .event .commitBlock | .event (.wake _ _ _)
  | .event .terminateCurrent | .event .reschedule | .event .finish => .isTrue trivial
  | .remove _ | .preemptDisable | .preemptEnable => .isTrue trivial

variable {s s' : Scheduler} {q q' : Queues} {t : Tid}

/-- A section wakes no thread that is in no list, unless it is about that thread. -/
lemma Wakes.out {target : Option Tid} {woken : List Tid} (h : Wakes target s q s' q' woken)
    (hout : ¬q.Has t) (htarget : target = some t → t ∉ woken) (hstopped : s.Stopped t) :
    ¬q'.Has t ∧ s'.Stopped t ∧ s'.current = s.current := by
  have hnot : t ∉ woken := by
    intro hw
    rcases h.source t hw with hb | hs | htar
    · exact hout (.inr (.inl hb))
    · exact hout (.inr (.inr hs))
    · exact htarget htar hw
  refine ⟨?_, ⟨h.idle ▸ hstopped.1, fun hcurrent => ?_⟩, h.current⟩
  · rintro (hr | hb | hs)
    · rw [h.ready, List.mem_append] at hr
      exact hr.elim (fun hr => hout (.inl hr)) hnot
    · exact hout (.inr (.inl (h.blocked.subset hb)))
    · exact hout (.inr (.inr (h.sleep.subset hs)))
  · rw [h.state, if_neg hnot]
    exact hstopped.2 (h.current ▸ hcurrent)

end Scheduler

namespace SchedRun

open Scheduler

variable {s s' : Scheduler} {q q' : Queues} {t : Tid} {op : SchedOp}

/-- A thread that does not run and is in no list stays so. -/
lemma Effect.out (h : Effect s q s' q' op) (hop : s.Withdrawn t op) (hout : ¬q.Has t)
    (hstopped : s.Stopped t) :
    ¬q'.Has t ∧ s'.Stopped t ∧ (s'.current = some t → s.current = some t ∧ ¬s.Completes op) := by
  have hsame : ∀ {s2 : Scheduler} {q2 : Queues},
      ¬q2.Has t ∧ s2.Stopped t ∧ s2.current = s.current →
      (op = .event .reschedule ∨ op = .event .finish → s.preemptDisableDepth ≠ 0) →
      ¬q2.Has t ∧ s2.Stopped t ∧ (s2.current = some t → s.current = some t ∧ ¬s.Completes op) :=
    fun hkept hdepth => ⟨hkept.1, hkept.2.1, fun hcurrent =>
      ⟨hkept.2.2 ▸ hcurrent, fun hcompletes => hdepth hcompletes.1 hcompletes.2⟩⟩
  have hother : ∀ {u : Tid} {x : ThreadState}, s.current = some u →
      s'.state = Function.update s.state u x → s'.idle = s.idle → s'.current = s.current →
      (u = t → x ≠ .running) → s'.Stopped t := by
    intro u x hu hstate hidle hcurrent hx
    refine ⟨hidle ▸ hstopped.1, fun ht => ?_⟩
    obtain rfl : u = t := Option.some.inj (hu.symm.trans (hcurrent ▸ ht))
    rw [hstate, Function.update_self]
    exact hx rfl
  cases h with
  | still _ hstill hq hdepth =>
    refine hsame ⟨hq ▸ hout, ⟨hstill.idle ▸ hstopped.1, fun hcurrent => ?_⟩, hstill.current⟩ hdepth
    rw [hstill.state]
    exact hstopped.2 (hstill.current ▸ hcurrent)
  | add u woken hwakes =>
    exact hsame (hwakes.out hout (fun hu => absurd (Option.some.inj hu) hop) hstopped) nofun
  | tick nowNs woken hwakes =>
    exact hsame (hwakes.out hout nofun hstopped) nofun
  | wake kind key maximum hwakes =>
    exact hsame (hwakes.out hout nofun hstopped) nofun
  | wakeThread u woken hwakes hwaits hnone =>
    refine hsame (hwakes.out hout (fun hu => ?_) hstopped) nofun
    obtain rfl := Option.some.inj hu
    rw [hnone (hop rfl).1 (hop rfl).2]
    exact List.not_mem_nil
  | block kind key u hcurrent hidle hq hstate hcurrent' hidle' hwaiting =>
    have hne : u ≠ t := fun hut => hop (hut ▸ hcurrent)
    refine hsame ⟨?_, hother hcurrent hstate hidle' hcurrent' fun hut => absurd hut hne,
      hcurrent'⟩ nofun
    rw [hq]
    rintro (hr | hb | hs)
    · exact hout (.inl hr)
    · exact hout (.inr (.inl ((List.mem_cons.1 hb).resolve_left hne.symm)))
    · exact hout (.inr (.inr hs))
  | sleep deadlineNs u sleep hcurrent hidle hq hsleep hstate hcurrent' hidle' hkind hkey =>
    have hne : u ≠ t := fun hut => hop (hut ▸ hcurrent)
    refine hsame ⟨?_, hother hcurrent hstate hidle' hcurrent' fun hut => absurd hut hne,
      hcurrent'⟩ nofun
    rw [hq]
    rintro (hr | hb | hs)
    · exact hout (.inl hr)
    · exact hout (.inr (.inl hb))
    · exact hout (.inr (.inr (((hsleep t).1 hs).resolve_left hne.symm)))
  | terminate u hcurrent hidle hq hstate hcurrent' hidle' hkind hkey =>
    exact hsame ⟨hq ▸ hout, hother hcurrent hstate hidle' hcurrent'
      (fun _ => nofun), hcurrent'⟩ nofun
  | resume u hcurrent hmem hq hstate hcurrent' hidle' hkind hkey =>
    have hne : u ≠ t := fun hut => hout (.inl (hut ▸ hmem))
    refine hsame ⟨?_, hother hcurrent hstate hidle' hcurrent' fun hut => absurd hut hne,
      hcurrent'⟩ nofun
    rw [hq]
    rintro (hr | hb | hs)
    · exact hout (.inl (List.mem_of_mem_erase hr))
    · exact hout (.inr (.inl hb))
    · exact hout (.inr (.inr hs))
  | remove u hq hstill =>
    refine hsame ⟨?_, ⟨hstill.idle ▸ hstopped.1, fun hcurrent => ?_⟩, hstill.current⟩ nofun
    · rw [hq]
      rintro (hr | hb | hs)
      · exact hout (.inl (List.mem_of_mem_erase hr))
      · exact hout (.inr (.inl (List.mem_of_mem_erase hb)))
      · exact hout (.inr (.inr (List.mem_of_mem_erase hs)))
    · rw [hstill.state]
      exact hstopped.2 (hstill.current ▸ hcurrent)
  | switch event hevent hdepth next rest hq hcurrent hrun hnext hswitched =>
    -- the thread is not put back into the ready list, and only a thread of that list is taken
    have hqueue : t ∉ q.ready ++ s.requeued := by
      rw [List.mem_append, mem_requeued]
      rintro (hr | ⟨hcur, -, hstate⟩)
      · exact hout (.inl hr)
      · exact hstopped.2 hcur hstate
    have hne : next ≠ t := by
      rintro rfl
      rcases hnext with heq | ⟨-, -, hidle⟩
      · exact hqueue (heq ▸ List.mem_cons_self)
      · exact hstopped.1 hidle
    have hcurrent' : s'.current ≠ some t :=
      fun heq => hne (Option.some.inj (hcurrent.symm.trans heq))
    refine ⟨?_, ⟨hswitched.idle ▸ hstopped.1, fun heq => absurd heq hcurrent'⟩,
      fun heq => absurd heq hcurrent'⟩
    rw [hq]
    rintro (hr | hb | hs)
    · rcases hnext with heq | ⟨-, hnil, -⟩
      · exact hqueue (heq ▸ List.mem_cons_of_mem next hr)
      · exact absurd (hnil ▸ hr) List.not_mem_nil
    · exact hout (.inr (.inl hb))
    · exact hout (.inr (.inr hs))

/-- The lists are in order, and the thread has been removed and does not run. -/
def Outside (t : Tid) (r : SchedRun) : Prop := ∃ q, r.Tidy q ∧ ¬q.Has t ∧ r.sched.Stopped t

/-- A step of a run in which the thread stays removed. -/
def StaysOut (t : Tid) (r : SchedRun) (op : SchedOp) : Prop :=
  r.AllowsOp op ∧ r.sched.Withdrawn t op

instance (t : Tid) (r : SchedRun) (op : SchedOp) : Decidable (r.StaysOut t op) :=
  inferInstanceAs (Decidable (_ ∧ _))

/-- A removed thread stays out, and is on the processor only until the next switch. -/
lemma Outside.step {r : SchedRun} (h : r.Outside t) (hop : r.StaysOut t op) :
    (r.stepOp op).Outside t ∧
      ((r.stepOp op).sched.current = some t → r.sched.current = some t ∧
        ¬r.sched.Completes op) := by
  obtain ⟨q, htidy, hout, hstopped⟩ := h
  obtain ⟨q', htidy', heffect⟩ := htidy.step hop.1
  obtain ⟨hout', hstopped', hcurrent⟩ := heffect.out hop.2 hout hstopped
  exact ⟨⟨q', htidy', hout', hstopped'⟩, hcurrent⟩

/-- A removed thread that is not on the processor is gone. -/
lemma Outside.gone {r : SchedRun} (h : r.Outside t) (hcurrent : r.sched.current ≠ some t) :
    r.sched.Gone t := by
  obtain ⟨q, htidy, hout, -⟩ := h
  exact ⟨hcurrent, q, htidy.sched.runs, htidy.sched.blocked, htidy.sched.sleep, hout⟩

/-- In every run in which `ns_sched_remove` is called for a thread that does not run, and in which
nobody brings the thread back, the thread is neither on the processor nor in a list from the next
completed reschedule on. -/
theorem removed_thread_stays_out (idle : Tid) (quantumTicks : ℕ) (published flagged : Tid → Bool)
    (t : Tid) (before between after : List SchedOp) (op : SchedOp)
    (hbefore : AllSteps stepOp AllowsOp (start idle quantumTicks published flagged) before)
    (hstopped : (before.foldl stepOp (start idle quantumTicks published flagged)).sched.Stopped t)
    (hafter : AllSteps stepOp (StaysOut t)
      ((before ++ [SchedOp.remove t]).foldl stepOp (start idle quantumTicks published flagged))
      (between ++ op :: after))
    (hop : ((before ++ SchedOp.remove t :: between).foldl stepOp
      (start idle quantumTicks published flagged)).sched.Completes op) :
    ((before ++ SchedOp.remove t :: between ++ op :: after).foldl stepOp
      (start idle quantumTicks published flagged)).sched.Gone t := by
  obtain ⟨q₀, htidy₀⟩ := tidy_start idle quantumTicks published flagged
  obtain ⟨⟨q, htidy⟩, -⟩ := htidy₀.run hbefore
  simp only [List.foldl_append, List.foldl_cons, List.foldl_nil] at hafter hop ⊢
  generalize before.foldl stepOp (start idle quantumTicks published flagged) = r
    at htidy hstopped hafter hop ⊢
  have hremoved : (r.stepOp (.remove t)).Outside t := by
    have hstill := still_nsSchedRemove r.sched t
    refine ⟨_, htidy.remove t, ?_, hstill.idle ▸ hstopped.1, fun hcurrent => ?_⟩
    · rintro (hr | hb | hs)
      · exact htidy.sched.runs.nodup.not_mem_erase hr
      · exact htidy.sched.blocked.nodup.not_mem_erase hb
      · exact htidy.sched.sleep.nodup.not_mem_erase hs
    · rw [show (r.stepOp (.remove t)).sched.state = r.sched.state from hstill.state]
      exact hstopped.2 (hstill.current ▸ hcurrent)
  obtain ⟨hbetween, hswitch, hrest⟩ := allSteps_append.1 hafter
  have houtside := hbetween.last (Outside t) (fun _ _ h hc => (h.step hc).1) hremoved
  obtain ⟨hswitched, hcurrent⟩ := houtside.step hswitch
  have hend := hrest.last (fun r => r.Outside t ∧ r.sched.current ≠ some t)
    (fun _ _ h hc => ⟨(h.1.step hc).1, fun hcur => h.2 ((h.1.step hc).2 hcur).1⟩)
    ⟨hswitched, fun hcur => (hcurrent hcur).2 hop⟩
  exact hend.1.gone hend.2

/-- Thread 1 is removed between its preparation to block and the switch, and stays away. -/
theorem removed_thread_stays_out_prepared :
    (([SchedOp.event (.add 1), .event .reschedule, .event (.prepareBlock .io 7)] ++
      SchedOp.remove 1 :: [] ++ SchedOp.event .reschedule :: [.event (.tick 0)]).foldl stepOp
      (start 0 5 (fun _ => false) fun _ => false)).sched.Gone 1 :=
  removed_thread_stays_out 0 5 (fun _ => false) (fun _ => false) 1
    [.event (.add 1), .event .reschedule, .event (.prepareBlock .io 7)] [] [.event (.tick 0)]
    (.event .reschedule) (by decide) (by decide) (by decide) ⟨.inl rfl, rfl⟩

/-- Thread 1 is removed while it runs. The reschedule that the removal asks for puts it at the end
of the ready list and takes it from there again. -/
theorem removed_running_thread_runs_on :
    ∃ ops : List SchedOp,
      AllSteps stepOp AllowsOp (start 0 5 (fun _ => false) fun _ => false)
        (ops ++ [SchedOp.remove 1, .event .reschedule]) ∧
      ((ops ++ [SchedOp.remove 1]).foldl stepOp
        (start 0 5 (fun _ => false) fun _ => false)).sched.Completes (.event .reschedule) ∧
      ((ops ++ [SchedOp.remove 1, .event .reschedule]).foldl stepOp
        (start 0 5 (fun _ => false) fun _ => false)).sched.current = some 1 ∧
      ¬((ops ++ [SchedOp.remove 1, .event .reschedule]).foldl stepOp
        (start 0 5 (fun _ => false) fun _ => false)).sched.Gone 1 :=
  ⟨[.event (.add 1), .event .reschedule], by decide, ⟨.inl rfl, rfl⟩, by decide,
    fun hgone => hgone.1 (by decide)⟩

end SchedRun

end Northstar
