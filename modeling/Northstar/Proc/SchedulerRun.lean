import Northstar.Proc.SchedulerQueues

/-! # Every thread is where its state says

In a run without `ns_sched_remove` the lists of the scheduler hold, in some order, exactly the added
threads in the state that the list is for. That a thread in a list has the state that the list is
for is known of every run (`Tidy`); what is left is that no section loses a thread (`Ok`). -/

namespace Northstar

open Function

/-- The lists hold the thread if its state says so. -/
def Queues.Holds (q : Queues) (t : Tid) (x : ThreadState) : Prop :=
  (x = .ready → t ∈ q.ready) ∧ (x = .blocked → t ∈ q.blocked) ∧ (x = .sleeping → t ∈ q.sleep)

namespace Queues

variable {q : Queues} {t : Tid}

/-- A thread in the ready list is held there. -/
lemma holds_ready (h : t ∈ q.ready) : q.Holds t .ready := ⟨fun _ => h, nofun, nofun⟩

/-- A thread in the blocked list is held there. -/
lemma holds_blocked (h : t ∈ q.blocked) : q.Holds t .blocked := ⟨nofun, fun _ => h, nofun⟩

/-- A thread in the sleep list is held there. -/
lemma holds_sleeping (h : t ∈ q.sleep) : q.Holds t .sleeping := ⟨nofun, nofun, fun _ => h⟩

/-- A running thread need not be in a list. -/
lemma holds_running : q.Holds t .running := ⟨nofun, nofun, nofun⟩

/-- A zombie need not be in a list. -/
lemma holds_zombie : q.Holds t .zombie := ⟨nofun, nofun, nofun⟩

end Queues

namespace Scheduler

/-- The lists are tidy and hold every added thread where its state says. -/
structure Ok (s : Scheduler) (q : Queues) : Prop extends Tidy s q where
  holds : ∀ t ∈ s.added, q.Holds t (s.state t)
  settled : ∀ t ∈ s.added, s.state t ≠ .embryo
  depth : s.preemptDisableDepth = 0

variable {s s' : Scheduler} {q q' : Queues} {t : Tid}

/-- A thread moves to the list for its new state. -/
lemma Ok.moved {x : ThreadState} (h : s.Ok q) (hmoved : Moved t x s s' q') (hx : x ≠ .embryo)
    (hself : q'.Holds t x)
    (hother : ∀ u ≠ t, (u ∈ q.ready → u ∈ q'.ready) ∧ (u ∈ q.blocked → u ∈ q'.blocked) ∧
      (u ∈ q.sleep → u ∈ q'.sleep)) : s'.Ok q' := by
  refine ⟨hmoved.tidy, fun u hu => ?_, fun u hu => ?_, hmoved.rest.depth.trans h.depth⟩
  · rw [hmoved.state]
    rw [hmoved.added] at hu
    by_cases hut : u = t
    · rw [hut, update_self]
      exact hself
    · rw [update_of_ne hut]
      obtain ⟨hready, hblocked, hsleep⟩ := h.holds u hu
      obtain ⟨hready', hblocked', hsleep'⟩ := hother u hut
      exact ⟨fun hx => hready' (hready hx), fun hx => hblocked' (hblocked hx),
        fun hx => hsleep' (hsleep hx)⟩
  · rw [hmoved.state]
    rw [hmoved.added] at hu
    by_cases hut : u = t
    · rw [hut, update_self]
      exact hx
    · rw [update_of_ne hut]
      exact h.settled u hu

/-- Nothing that the lists and the states depend on has changed. -/
lemma Ok.same (h : s.Ok q) (htidy : s'.Tidy q) (hstate : s'.state = s.state)
    (hadded : s'.added = s.added) (hdepth : s'.preemptDisableDepth = s.preemptDisableDepth) :
    s'.Ok q := by
  refine ⟨htidy, fun u hu => ?_, fun u hu => ?_, hdepth.trans h.depth⟩
  · rw [hstate]
    exact h.holds u (hadded ▸ hu)
  · rw [hstate]
    exact h.settled u (hadded ▸ hu)

/-! ### Sections that anyone may run -/

/-- A section that keeps the lists in order and does nothing to the states but make threads ready
that do not run. -/
def Keeps (s s' : Scheduler) : Prop :=
  (∃ q, s'.Ok q) ∧ s'.current = s.current ∧ s'.idle = s.idle ∧
    ∀ t, s'.state t = s.state t ∨ s.state t ≠ .running ∧ s'.state t = .ready

section

variable (h : s.Ok q)
include h

/-- A section that wakes threads loses none. -/
lemma Ok.keeps_of_wakes {target : Option Tid} {woken : List Tid}
    (hwakes : Wakes target s q s' q' woken) : Keeps s s' := by
  refine ⟨⟨q', ⟨hwakes.tidy, fun t ht => ?_, fun t ht => ?_, hwakes.depth.trans h.depth⟩⟩,
    hwakes.current, hwakes.idle, fun t => ?_⟩
  · rw [hwakes.state t]
    split_ifs with hw
    · refine Queues.holds_ready ?_
      rw [hwakes.ready]
      exact List.mem_append_right q.ready hw
    · obtain ⟨hready, hblocked, hsleep⟩ := h.holds t ((hwakes.added t ht).resolve_right hw)
      refine ⟨fun hx => ?_, fun hx => hwakes.kept t (hblocked hx) hw,
        fun hx => hwakes.keptSleep t (hsleep hx) hw⟩
      rw [hwakes.ready]
      exact List.mem_append_left woken (hready hx)
  · rw [hwakes.state t]
    split_ifs with hw
    · nofun
    · exact h.settled t ((hwakes.added t ht).resolve_right hw)
  · rw [hwakes.state t]
    by_cases hw : t ∈ woken
    · exact .inr ⟨hwakes.notRunning t hw, if_pos hw⟩
    · exact .inl (if_neg hw)

/-! ### Sections of the thread that runs -/

section

variable (hrun : ∀ t, s.current = some t → s.idle ≠ some t → s.state t = .running)
include hrun

/-- A running thread is in no list. -/
lemma Ok.notMem_of_running : s.CurrentOut q := by
  intro t hcurrent hidle
  have hstate := hrun t hcurrent hidle
  refine ⟨h.toTidy.notMem_ready ?_, h.toTidy.notMem_blocked ?_, h.toTidy.notMem_sleep ?_⟩ <;>
    rw [hstate] <;> nofun

/-- `ns_sched_prepare_block` keeps the scheduler in order. -/
lemma nsSchedPrepareBlock_ok (kind : WaitKind) (key : ℕ) :
    (∃ q', (s.nsSchedPrepareBlock kind key).Ok q') ∧
      (s.nsSchedPrepareBlock kind key).current = s.current ∧
      (s.nsSchedPrepareBlock kind key).idle = s.idle ∧
      ∀ t, s.current = some t → s.idle ≠ some t →
        (s.nsSchedPrepareBlock kind key).state t = .running ∨
          (s.nsSchedPrepareBlock kind key).state t = .blocked := by
  rcases nsSchedPrepareBlock_cases h.toTidy kind key (h.notMem_of_running hrun) with
    ⟨heq, -⟩ | ⟨t, hmoved, -⟩
  · rw [heq]
    exact ⟨⟨q, h⟩, rfl, rfl, fun t ht hne => .inl (hrun t ht hne)⟩
  · exact ⟨⟨_, h.moved hmoved nofun (Queues.holds_blocked List.mem_cons_self)
      fun u _ => ⟨id, List.mem_cons_of_mem t, id⟩⟩, hmoved.rest.current, hmoved.rest.idle,
      fun u hu _ => .inr (hmoved.state_current hu)⟩

/-- The section of `ns_sched_terminate_current` keeps the scheduler in order. -/
lemma terminateSection_ok : (∃ q', s.terminateSection.2.Ok q') ∧
      s.terminateSection.2.current = s.current ∧
      s.terminateSection.2.idle = s.idle ∧
      ∀ t, s.current = some t → s.idle ≠ some t → s.terminateSection.1 = true := by
  have hswitch : ∀ t, s.current = some t → s.idle ≠ some t → s.terminateSection.1 = true := by
    intro t ht hne
    rw [terminateSection, ht]
    dsimp only
    rw [if_neg hne]
    exact decide_eq_true h.depth
  rcases terminateSection_cases h.toTidy (h.notMem_of_running hrun) with
    heq | ⟨t, hmoved, -⟩
  · refine ⟨?_, ?_, ?_, hswitch⟩ <;> rw [heq]
    exact ⟨q, h⟩
  · exact ⟨⟨q, h.moved hmoved (by decide) Queues.holds_zombie fun u _ => ⟨id, id, id⟩⟩,
      hmoved.rest.current, hmoved.rest.idle, hswitch⟩

/-- The section of `ns_sched_sleep_until` keeps the scheduler in order. -/
lemma sleepSection_ok (deadlineNs : ℕ) :
    (∃ q', (s.sleepSection deadlineNs).2.Ok q') ∧
      (s.sleepSection deadlineNs).2.current = s.current ∧
      (s.sleepSection deadlineNs).2.idle = s.idle ∧
      ∀ t, s.current = some t → s.idle ≠ some t → (s.sleepSection deadlineNs).1 = true := by
  rcases sleepSection_cases h.toTidy deadlineNs (h.notMem_of_running hrun) with
    ⟨heq, hnone⟩ | ⟨t, sleep, hmoved, hswitch, hsleep, -⟩
  · rw [heq]
    exact ⟨⟨q, h⟩, rfl, rfl, fun t ht hne => absurd (hnone t ht) hne⟩
  · refine ⟨⟨_, h.moved hmoved nofun
      (Queues.holds_sleeping ((hsleep t).2 (.inl rfl)))
      fun u _ => ⟨id, id, fun hu => (hsleep u).2 (.inr hu)⟩⟩, hmoved.rest.current,
      hmoved.rest.idle, fun _ _ _ => ?_⟩
    rw [hswitch]
    exact decide_eq_true h.depth

end

/-- The section of `ns_sched_commit_block`: a thread that has been woken since it prepared runs on,
and one that has not is about to reschedule. -/
lemma commitSection_ok : (∃ q', s.commitSection.2.Ok q') ∧ s.commitSection.2.current = s.current ∧
      s.commitSection.2.idle = s.idle ∧
      ∀ t, s.current = some t → s.idle ≠ some t →
        s.state t = .running ∨ s.state t = .blocked ∨ s.state t = .ready →
          s.commitSection.2.state t = .running ∨ s.commitSection.1 = true := by
  rcases commitSection_cases h.toTidy with ⟨heq, hnot⟩ | ⟨t, -, -, heq⟩ |
    ⟨t, hmoved, -⟩
  · rw [heq]
    refine ⟨⟨q, h⟩, rfl, rfl, fun t ht hne hwaits => .inl (hwaits.resolve_right fun hrest => ?_)⟩
    have hready := hrest.resolve_left (hnot t ht).1
    exact (hnot t ht).2 ((h.holds t (h.toTidy.added_of_current ht hne)).1 hready)
  · rw [heq]
    exact ⟨⟨q, h.same (h.toTidy.congr rfl rfl rfl rfl rfl rfl rfl rfl rfl rfl) rfl rfl rfl⟩, rfl,
      rfl, fun _ _ _ _ => .inr (decide_eq_true h.depth)⟩
  · exact ⟨⟨_, h.moved hmoved nofun Queues.holds_running
      fun u hu => ⟨(List.mem_erase_of_ne hu).2, id, id⟩⟩, hmoved.rest.current, hmoved.rest.idle,
      fun u hu _ _ => .inl (hmoved.state_current hu)⟩

/-! ### Switching -/

/-- After `ns_sched_reschedule` the lists are in order, and the thread that runs is running. -/
lemma nsSchedReschedule_ok : (∃ q', s.nsSchedReschedule.Ok q') ∧ s.nsSchedReschedule.idle = s.idle ∧
      ∀ t, s.nsSchedReschedule.current = some t → s.nsSchedReschedule.state t = .running := by
  obtain ⟨next, rest, htidy, hcurrent, hrun, hnext, hswitched⟩ :=
    nsSchedReschedule_tidy h.toTidy h.depth
  have hqueue : ∀ u ∈ q.ready ++ s.requeued, u ≠ next → u ∈ rest := by
    intro u hu hne
    rcases hnext with heq | ⟨heq, -⟩
    · rw [heq] at hu
      exact (List.mem_cons.1 hu).resolve_left hne
    · rw [heq] at hu
      exact absurd hu List.not_mem_nil
  -- an added thread that does not run now is in the state that it was in, or was put aside
  have hstate : ∀ u ∈ s.nsSchedReschedule.added, u ∈ s.added ∧
      (s.nsSchedReschedule.state u = .running ∨ s.nsSchedReschedule.state u =
        if u ∈ s.requeued then .ready else s.state u) := fun u hu =>
    have hadded := hswitched.added ▸ hu
    ⟨hadded, hswitched.others u (h.toTidy.ne_idle hadded)⟩
  refine ⟨⟨_, ⟨htidy, fun u hu => ?_, fun u hu => ?_, hswitched.depth.trans h.depth⟩⟩,
    hswitched.idle, fun t ht => ?_⟩
  · obtain ⟨hadded, hrunning | heq⟩ := hstate u hu
    · rw [hrunning]
      exact Queues.holds_running
    · obtain ⟨hready, hblocked, hsleep⟩ := h.holds u hadded
      split_ifs at heq with hrequeued
      · rw [heq]
        have hne : u ≠ next := by
          rintro rfl
          rw [hrun] at heq
          cases heq
        exact Queues.holds_ready (hqueue u (List.mem_append_right _ hrequeued) hne)
      · refine ⟨fun hx => ?_, fun hx => hblocked (heq ▸ hx), fun hx => hsleep (heq ▸ hx)⟩
        have hne : u ≠ next := by
          rintro rfl
          rw [hrun] at hx
          cases hx
        exact hqueue u (List.mem_append_left _ (hready (heq ▸ hx))) hne
  · obtain ⟨hadded, hrunning | heq⟩ := hstate u hu
    · rw [hrunning]
      nofun
    · rw [heq]
      split_ifs
      · nofun
      · exact h.settled u hadded
  · obtain rfl : next = t := Option.some.inj (hcurrent.symm.trans ht)
    exact hrun

end

end Scheduler

/-! ### Runs -/

namespace SchedRun

open Scheduler

/-- The scheduler is in order, and the thread that runs is running, or is to reschedule, or has
prepared to block. -/
structure Ok (r : SchedRun) : Prop where
  sched : ∃ q, r.sched.Ok q
  current : ∀ t, r.sched.current = some t → r.sched.idle ≠ some t →
    r.sched.state t = .running ∨ r.inCall t = true ∨
      r.prepared t = true ∧ (r.sched.state t = .blocked ∨ r.sched.state t = .ready)

/-- A run is in order at the start. -/
lemma ok_start (idle : Tid) (quantumTicks : ℕ) (published flagged : Tid → Bool) :
    (start idle quantumTicks published flagged).Ok :=
  ⟨⟨_, sched_tidy_start idle quantumTicks published flagged,
    fun t ht => absurd ht (Finset.notMem_empty t), fun t ht => absurd ht (Finset.notMem_empty t),
    rfl⟩, nofun⟩

variable {r : SchedRun}

/-- A section that keeps the scheduler in order keeps the run so. -/
lemma Ok.of_keeps (h : r.Ok) {s' : Scheduler} (hkeeps : Scheduler.Keeps r.sched s') :
    ({ r with sched := s' } : SchedRun).Ok := by
  obtain ⟨hok, hcurrent, hidle, hstate⟩ := hkeeps
  refine ⟨hok, fun t ht hne => ?_⟩
  have ht' : r.sched.current = some t := hcurrent ▸ ht
  have hne' : r.sched.idle ≠ some t := hidle ▸ hne
  rcases h.current t ht' hne' with hrun | hcall | ⟨hprep, hwaits⟩
  · refine .inl ((hstate t).elim (fun heq => heq.trans hrun) fun hready => absurd hrun hready.1)
  · exact .inr (.inl hcall)
  · refine .inr (.inr ⟨hprep, ?_⟩)
    rcases hstate t with heq | ⟨-, hready⟩
    · rw [← heq] at hwaits
      exact hwaits
    · exact .inr hready

/-- A thread that is not in the middle of anything is running. -/
lemma Ok.running_of_free (h : r.Ok) (hfree : r.Free) (t : Tid)
    (ht : r.sched.current = some t) (hne : r.sched.idle ≠ some t) :
    r.sched.state t = .running := by
  obtain ⟨hprepared, hinCall⟩ := hfree t ht
  rcases h.current t ht hne with hrun | hcall | ⟨hprep, -⟩
  · exact hrun
  · rw [hinCall] at hcall
    cases hcall
  · rw [hprepared] at hprep
    cases hprep

/-- A run that has switched is in order, whatever its threads have yet to do. -/
lemma ok_reschedule (h : r.Ok) (inCall : Tid → Bool) :
    ({ r with sched := r.sched.nsSchedReschedule, inCall := inCall } : SchedRun).Ok := by
  obtain ⟨q, hq⟩ := h.sched
  obtain ⟨hok, -, hrun⟩ := nsSchedReschedule_ok hq
  exact ⟨hok, fun t ht _ => .inl (hrun t ht)⟩

/-- Every step that its thread may take keeps a run in order. -/
lemma Ok.step (h : r.Ok) {event : SchedEvent} (hallows : r.Allows event) : (r.step event).Ok := by
  obtain ⟨q, hq⟩ := h.sched
  cases event with
  | add thread =>
    obtain ⟨q', woken, hwakes, -⟩ := nsSchedAdd_wakes hq.toTidy thread
    exact h.of_keeps (hq.keeps_of_wakes hwakes)
  | tick nowNs =>
    obtain ⟨q', woken, hwakes⟩ := tickSection_wakes hq.toTidy nowNs
    exact h.of_keeps (hq.keeps_of_wakes hwakes)
  | wake kind key maximum =>
    obtain ⟨q', hwakes⟩ := nsSchedWake_wakes hq.toTidy kind key maximum
    exact h.of_keeps (hq.keeps_of_wakes hwakes)
  | wakeThread thread =>
    obtain ⟨q', woken, hwakes, -⟩ := nsSchedWakeThread_wakes hq.toTidy thread
    exact h.of_keeps (hq.keeps_of_wakes hwakes)
  | reschedule => exact ok_reschedule h r.inCall
  | finish => exact ok_reschedule h _
  | yield =>
    refine ⟨⟨q, hq.same (hq.toTidy.congr rfl rfl rfl rfl rfl rfl rfl rfl rfl rfl) rfl rfl rfl⟩,
      fun t ht hne => ?_⟩
    exact .inl (h.running_of_free hallows t ht hne)
  | prepareBlock kind key =>
    obtain ⟨hok, hcurrent, hidle, hstate⟩ :=
      nsSchedPrepareBlock_ok hq (h.running_of_free hallows) kind key
    refine ⟨hok, fun t ht hne => ?_⟩
    have ht' : r.sched.current = some t := hcurrent ▸ ht
    rcases hstate t ht' (hidle ▸ hne) with hrun | hblocked
    · exact .inl hrun
    · exact .inr (.inr ⟨mark_current ht' _ _, .inl hblocked⟩)
  | commitBlock =>
    obtain ⟨hok, hcurrent, hidle, hstate⟩ := commitSection_ok hq
    refine ⟨hok, fun t ht hne => ?_⟩
    have ht' : r.sched.current = some t := hcurrent ▸ ht
    have hne' : r.sched.idle ≠ some t := hidle ▸ hne
    have hbefore : r.sched.state t = .running ∨ r.sched.state t = .blocked ∨
        r.sched.state t = .ready := by
      rcases h.current t ht' hne' with hrun | hcall | ⟨-, hwaits⟩
      · exact .inl hrun
      · rw [hallows t ht'] at hcall
        cases hcall
      · exact .inr hwaits
    rcases hstate t ht' hne' hbefore with hrun | hswitch
    · exact .inl hrun
    · exact .inr (.inl ((mark_current ht' _ _).trans hswitch))
  | sleepUntil deadlineNs =>
    obtain ⟨hok, hcurrent, hidle, hswitch⟩ :=
      sleepSection_ok hq (h.running_of_free hallows) deadlineNs
    refine ⟨hok, fun t ht hne => ?_⟩
    have ht' : r.sched.current = some t := hcurrent ▸ ht
    exact .inr (.inl ((mark_current ht' _ _).trans (hswitch t ht' (hidle ▸ hne))))
  | terminateCurrent =>
    obtain ⟨hok, hcurrent, hidle, hswitch⟩ := terminateSection_ok hq (h.running_of_free hallows)
    refine ⟨hok, fun t ht hne => ?_⟩
    have ht' : r.sched.current = some t := hcurrent ▸ ht
    exact .inr (.inl ((mark_current ht' _ _).trans (hswitch t ht' (hidle ▸ hne))))

/-- A run keeps the scheduler in order. -/
lemma Ok.run (h : r.Ok) {events : List SchedEvent} (hobeys : r.Obeys events) :
    (events.foldl SchedRun.step r).Ok := by
  induction events generalizing r with
  | nil => exact h
  | cons event events ih => exact ih (h.step hobeys.1) hobeys.2

end SchedRun

/-! ### The guarantee -/

/-- Every added thread is in the one place that its state says, and the lists are well formed. -/
def Scheduler.Consistent (s : Scheduler) : Prop :=
  ∃ q : Queues,
    s.ready.Runs q.ready ∧ s.blocked.Lists q.blocked ∧ s.sleep.Lists q.sleep ∧
    (q.sleep.Pairwise fun t u => s.wakeDeadline t ≤ s.wakeDeadline u) ∧
    ∀ t ∈ s.added, s.idle ≠ some t →
      s.state t ≠ .embryo ∧
      q.ready.count t = (if s.state t = .ready then 1 else 0) ∧
      q.blocked.count t = (if s.state t = .blocked then 1 else 0) ∧
      q.sleep.count t = (if s.state t = .sleeping then 1 else 0) ∧
      (s.state t = .running → s.current = some t)

/-- A list without repetitions holds a thread once or not at all. -/
lemma count_of_mem_iff {l : List Tid} (hnodup : l.Nodup) {t : Tid} {p : Prop} [Decidable p]
    (h : t ∈ l ↔ p) : l.count t = if p then 1 else 0 := by
  split_ifs with hp
  · exact List.count_eq_one_of_mem hnodup (h.2 hp)
  · exact List.count_eq_zero.2 fun hmem => hp (h.1 hmem)

/-- A scheduler in order is consistent. -/
lemma Scheduler.Ok.consistent {s : Scheduler} {q : Queues} (h : s.Ok q) : s.Consistent := by
  refine ⟨q, h.runs, h.blocked, h.sleep, h.sorted, fun t ht _ => ⟨h.settled t ht, ?_, ?_, ?_,
    h.running t ht⟩⟩
  · exact count_of_mem_iff h.runs.nodup ⟨fun hmem => (h.ready t hmem).2, (h.holds t ht).1⟩
  · exact count_of_mem_iff h.blocked.nodup ⟨fun hmem => (h.waits t hmem).2, (h.holds t ht).2.1⟩
  · exact count_of_mem_iff h.sleep.nodup ⟨fun hmem => (h.sleeps t hmem).2, (h.holds t ht).2.2⟩

/-- After every run from a scheduler with an idle thread, in which preemption stays enabled and the
threads commit what they prepare, every added thread is in the one place that its state says. The
ready threads form a doubly linked cycle, the blocked and the sleeping ones acyclic lists, the
latter sorted by deadline. The thread that runs, if it is not the idle one, is running unless it is
between preparing to block and committing, or about to reschedule. -/
theorem scheduler_places_threads (idle : Tid) (quantumTicks : ℕ) (published flagged : Tid → Bool)
    {events : List SchedEvent}
    (hobeys : (SchedRun.start idle quantumTicks published flagged).Obeys events) :
    let r := events.foldl SchedRun.step (SchedRun.start idle quantumTicks published flagged)
    r.sched.Consistent ∧
    ∀ t, r.sched.current = some t → r.sched.idle ≠ some t →
      r.sched.state t = .running ∨ r.inCall t = true ∨ r.prepared t = true := by
  have hok := (SchedRun.ok_start idle quantumTicks published flagged).run hobeys
  obtain ⟨q, hq⟩ := hok.sched
  refine ⟨hq.consistent, fun t ht hne => ?_⟩
  exact (hok.current t ht hne).imp_right (.imp_right And.left)

/-- Thread 1 prepares to wait for a pipe, is switched away from and woken, and commits once it runs
again; thread 2 goes to sleep and is woken by the clock. -/
def pipeWaitEvents : List SchedEvent :=
  [.add 1, .add 2, .reschedule, .prepareBlock .pipeRead 7, .reschedule, .wake .pipeRead 7 1,
    .sleepUntil 50, .finish, .commitBlock, .tick 60]

/-- A thread waits for a pipe while another one runs. -/
theorem scheduler_places_threads_pipeWait :
    (SchedRun.start 0 5 (fun _ => true) (fun _ => false)).Obeys pipeWaitEvents ∧
    let r := pipeWaitEvents.foldl SchedRun.step
      (SchedRun.start 0 5 (fun _ => true) (fun _ => false))
    r.sched.current = some 1 ∧ r.sched.state 1 = .running ∧ r.sched.ready.head = some 2 ∧
    r.sched.Consistent ∧
    ∀ t, r.sched.current = some t → r.sched.idle ≠ some t →
      r.sched.state t = .running ∨ r.inCall t = true ∨ r.prepared t = true := by
  have hobeys : (SchedRun.start 0 5 (fun _ => true) (fun _ => false)).Obeys pipeWaitEvents := by
    decide +kernel
  exact ⟨hobeys, by decide +kernel, by decide +kernel, by decide +kernel,
    scheduler_places_threads 0 5 (fun _ => true) (fun _ => false) hobeys⟩

end Northstar
