import Northstar.Lib.Trace
import Northstar.Proc.Scheduler

/-! # What each section does to the lists

A thread that has been removed keeps its state, so in a run with `ns_sched_remove` the state does
not say any more in which list a thread is. What holds still is that a thread in a list has the
state that the list is for (`Tidy`). Each section is described by the lists that it leaves: the
sections that anyone may run append the threads that they wake to the ready list (`Wakes`), and
those of the thread that runs move that thread. -/

namespace Northstar

open Function List

/-- The threads in the lists of the scheduler, in order. -/
structure Queues where
  ready : List Tid
  blocked : List Tid
  sleep : List Tid

namespace Scheduler

/-- What no section but a switch changes. -/
structure SameRest (s s' : Scheduler) : Prop where
  current : s'.current = s.current
  idle : s'.idle = s.idle
  idleFlag : s'.idleFlag = s.idleFlag
  depth : s'.preemptDisableDepth = s.preemptDisableDepth

/-- The lists are well formed. -/
structure Formed (s : Scheduler) (q : Queues) : Prop where
  runs : s.ready.Runs q.ready
  blocked : s.blocked.Lists q.blocked
  sleep : s.sleep.Lists q.sleep
  sorted : q.sleep.Pairwise fun t u => s.wakeDeadline t ≤ s.wakeDeadline u
  onQueue : ∀ t, s.onRunQueue t = true ↔ t ∈ q.ready

/-- The lists are well formed, and the threads in them have the state that the list is for. -/
structure Tidy (s : Scheduler) (q : Queues) : Prop extends Formed s q where
  ready : ∀ t ∈ q.ready, t ∈ s.added ∧ s.state t = .ready
  waits : ∀ t ∈ q.blocked, t ∈ s.added ∧ s.state t = .blocked
  sleeps : ∀ t ∈ q.sleep, t ∈ s.added ∧ s.state t = .sleeping
  running : ∀ t ∈ s.added, s.state t = .running → s.current = some t
  unadded : ∀ t ∉ s.added, s.state t ≠ .blocked ∧ s.state t ≠ .sleeping
  idle : ∃ i, s.idle = some i ∧ s.idleFlag i = true ∧ i ∉ s.added
  current : ∀ t, s.current = some t → t ∈ s.added ∨ s.idle = some t

/-- Only the thread `t`, which has the state `x` now, may have come into a list, the one for its
state. -/
structure Joins (t : Tid) (x : ThreadState) (q q' : Queues) : Prop where
  other : ∀ u ≠ t, (u ∈ q'.ready → u ∈ q.ready) ∧ (u ∈ q'.blocked → u ∈ q.blocked) ∧
    (u ∈ q'.sleep → u ∈ q.sleep)
  self : (t ∈ q'.ready → x = .ready) ∧ (t ∈ q'.blocked → x = .blocked) ∧
    (t ∈ q'.sleep → x = .sleeping)

variable {s s' : Scheduler} {q q' : Queues} {t : Tid} {x : ThreadState}

/-- A thread has become ready, from wherever it was. -/
structure MadeReady (s : Scheduler) (q : Queues) (t : Tid) (s' : Scheduler) : Prop where
  ready : s'.ready = s.ready.insertTail t
  queue : s'.onRunQueue = update s.onRunQueue t true
  blocked : s'.blocked.Lists (q.blocked.erase t)
  sleep : s'.sleep.Lists (q.sleep.erase t)
  deadline : ∀ u ≠ t, s'.wakeDeadline u = s.wakeDeadline u
  state : s'.state = update s.state t .ready
  added : s'.added = insert t s.added
  rest : SameRest s s'

namespace Tidy

section

variable (h : s.Tidy q)
include h

/-- The blocked list is no longer than there are added threads. -/
lemma length_blocked : q.blocked.length ≤ s.added.card := by
  rw [← toFinset_card_of_nodup h.blocked.nodup]
  exact Finset.card_le_card fun u hu => (h.waits u (mem_toFinset.1 hu)).1

/-- The sleep list is no longer than there are added threads. -/
lemma length_sleep : q.sleep.length ≤ s.added.card := by
  rw [← toFinset_card_of_nodup h.sleep.nodup]
  exact Finset.card_le_card fun u hu => (h.sleeps u (mem_toFinset.1 hu)).1

/-- An added thread is not the idle one. -/
lemma ne_idle (ht : t ∈ s.added) : s.idle ≠ some t := by
  obtain ⟨i, hi, -, hadded⟩ := h.idle
  intro hidle
  rw [hi] at hidle
  exact hadded (Option.some.inj hidle ▸ ht)

/-- The thread that runs is an added one unless it is the idle one. -/
lemma added_of_current (hcurrent : s.current = some t) (hidle : s.idle ≠ some t) :
    t ∈ s.added := (h.current t hcurrent).resolve_right hidle

/-- A thread in another state is not in the ready list. -/
lemma notMem_ready (ht : s.state t ≠ .ready) : t ∉ q.ready :=
  fun hmem => ht (h.ready t hmem).2

/-- A thread in another state is not in the blocked list. -/
lemma notMem_blocked (ht : s.state t ≠ .blocked) : t ∉ q.blocked :=
  fun hmem => ht (h.waits t hmem).2

/-- A thread in another state is not in the sleep list. -/
lemma notMem_sleep (ht : s.state t ≠ .sleeping) : t ∉ q.sleep :=
  fun hmem => ht (h.sleeps t hmem).2

/-- A thread that is not the idle one gets another state and another place; it is the only one that
comes into a list. -/
lemma move (hidle : s.idle ≠ some t) (hformed : s'.Formed q') (hjoins : Joins t x q q')
    (hstate : s'.state = update s.state t x) (hadded : s'.added = insert t s.added)
    (hidle' : s'.idle = s.idle) (hflag : s'.idleFlag = s.idleFlag)
    (hrunning : ∀ u ∈ s'.added, s'.state u = .running → s'.current = some u)
    (hcurrent : ∀ u, s'.current = some u → u ∈ s'.added ∨ s'.idle = some u) : s'.Tidy q' := by
  have hplace : ∀ (l l' : List Tid) (y : ThreadState),
      (∀ u ∈ l, u ∈ s.added ∧ s.state u = y) → (∀ u ≠ t, u ∈ l' → u ∈ l) → (t ∈ l' → x = y) →
      ∀ u ∈ l', u ∈ s'.added ∧ s'.state u = y := by
    intro l l' y hl hmem ht u hu
    rw [hadded, hstate]
    by_cases hut : u = t
    · subst hut
      rw [update_self]
      exact ⟨Finset.mem_insert_self u s.added, ht hu⟩
    · rw [update_of_ne hut]
      obtain ⟨hin, hy⟩ := hl u (hmem u hut hu)
      exact ⟨Finset.mem_insert_of_mem hin, hy⟩
  refine
    { hformed with
      ready := hplace q.ready q'.ready _ h.ready (fun u hu => (hjoins.other u hu).1) hjoins.self.1
      waits := hplace q.blocked q'.blocked _ h.waits (fun u hu => (hjoins.other u hu).2.1)
        hjoins.self.2.1
      sleeps := hplace q.sleep q'.sleep _ h.sleeps (fun u hu => (hjoins.other u hu).2.2)
        hjoins.self.2.2
      running := hrunning
      unadded := fun u hu => ?_
      idle := ?_
      current := hcurrent }
  · rw [hadded, Finset.mem_insert, not_or] at hu
    rw [hstate, update_of_ne hu.1]
    exact h.unadded u hu.2
  · obtain ⟨i, hi, hiflag, hnot⟩ := h.idle
    refine ⟨i, hidle'.trans hi, hflag ▸ hiflag, ?_⟩
    rw [hadded, Finset.mem_insert, not_or]
    exact ⟨fun hit => hidle (hit ▸ hi), hnot⟩

/-- A thread that is made ready goes to the end of the ready list. -/
lemma makeReady (ht : t ∉ q.ready) (hidle : s.idle ≠ some t) (hm : s.MadeReady q t s') :
    s'.Tidy ⟨q.ready ++ [t], q.blocked.erase t, q.sleep.erase t⟩ := by
  obtain ⟨hready, hqueue, hblocked, hsleep, hdeadline, hstate, hadded, hrest⟩ := hm
  refine h.move hidle ⟨hready ▸ h.runs.insertTail ht, hblocked, hsleep, ?_, fun u => ?_⟩
    ⟨fun u hu => ⟨fun hmem => ?_, mem_of_mem_erase, mem_of_mem_erase⟩,
      fun _ => rfl, fun hmem => ?_, fun hmem => ?_⟩ hstate hadded hrest.idle hrest.idleFlag
    (fun u hu hrun => ?_) fun u hu => ?_
  · have hnodup := h.sleep.nodup
    refine (h.sorted.sublist erase_sublist).imp_of_mem fun {a b} ha hb hab => ?_
    rw [hdeadline a (hnodup.mem_erase_iff.1 ha).1, hdeadline b (hnodup.mem_erase_iff.1 hb).1]
    exact hab
  · rw [hqueue]
    by_cases hu : u = t
    · subst hu
      simp
    · rw [update_of_ne hu, h.onQueue]
      simp [hu]
  · rcases mem_append.1 hmem with hmem | hmem
    · exact hmem
    · exact absurd (mem_singleton.1 hmem) hu
  · exact absurd hmem h.blocked.nodup.not_mem_erase
  · exact absurd hmem h.sleep.nodup.not_mem_erase
  · have hne : u ≠ t := by
      rintro rfl
      rw [hstate, update_self] at hrun
      cases hrun
    rw [hstate, update_of_ne hne] at hrun
    rw [hadded] at hu
    rw [hrest.current]
    exact h.running u ((Finset.mem_insert.1 hu).resolve_left hne) hrun
  · rw [hrest.current] at hu
    rw [hadded, hrest.idle]
    exact (h.current u hu).imp_left Finset.mem_insert_of_mem

/-- Threads have left the lists, and nothing else that these depend on has changed. -/
lemma shrink (hruns : s'.ready.Runs q'.ready)
    (hblocked : s'.blocked.Lists q'.blocked) (hsleep : s'.sleep.Lists q'.sleep)
    (hqueue : ∀ u, s'.onRunQueue u = true ↔ u ∈ q'.ready) (hready' : q'.ready ⊆ q.ready)
    (hblocked' : q'.blocked ⊆ q.blocked) (hsleep' : q'.sleep.Sublist q.sleep)
    (hdeadline : s'.wakeDeadline = s.wakeDeadline) (hstate : s'.state = s.state)
    (hadded : s'.added = s.added) (hcurrent : s'.current = s.current)
    (hidle : s'.idle = s.idle) (hflag : s'.idleFlag = s.idleFlag) : s'.Tidy q' := by
  refine
    { runs := hruns
      blocked := hblocked
      sleep := hsleep
      sorted := hdeadline ▸ h.sorted.sublist hsleep'
      onQueue := hqueue
      ready := fun u hu => ?_
      waits := fun u hu => ?_
      sleeps := fun u hu => ?_
      running := ?_
      unadded := hstate ▸ hadded ▸ h.unadded
      idle := ?_
      current := ?_ }
  · rw [hstate, hadded]
    exact h.ready u (hready' hu)
  · rw [hstate, hadded]
    exact h.waits u (hblocked' hu)
  · rw [hstate, hadded]
    exact h.sleeps u (hsleep'.subset hu)
  · rw [hstate, hadded, hcurrent]
    exact h.running
  · rw [hidle, hflag, hadded]
    exact h.idle
  · rw [hcurrent, hadded, hidle]
    exact h.current

/-- Nothing that the lists and the states depend on has changed. -/
lemma congr (hready : s'.ready = s.ready) (hqueue : s'.onRunQueue = s.onRunQueue)
    (hblocked : s'.blocked = s.blocked) (hsleep : s'.sleep = s.sleep)
    (hdeadline : s'.wakeDeadline = s.wakeDeadline) (hstate : s'.state = s.state)
    (hadded : s'.added = s.added) (hcurrent : s'.current = s.current) (hidle : s'.idle = s.idle)
    (hflag : s'.idleFlag = s.idleFlag) : s'.Tidy q :=
  h.shrink (hready ▸ h.runs) (hblocked ▸ h.blocked) (hsleep ▸ h.sleep) (hqueue ▸ h.onQueue)
    (List.Subset.refl _) (List.Subset.refl _) (List.Sublist.refl _) hdeadline hstate hadded hcurrent
    hidle hflag

end

end Tidy

/-! ### Sections that anyone may run -/

/-- The section wakes the threads of a list, in that order, and does nothing else to the states.
They were in one of the lists, or are the thread that the section is about. -/
structure Wakes (target : Option Tid) (s : Scheduler) (q : Queues) (s' : Scheduler) (q' : Queues)
    (woken : List Tid) : Prop where
  tidy : s'.Tidy q'
  ready : q'.ready = q.ready ++ woken
  blocked : q'.blocked.Sublist q.blocked
  kept : ∀ t ∈ q.blocked, t ∉ woken → t ∈ q'.blocked
  sleep : q'.sleep.Sublist q.sleep
  keptSleep : ∀ t ∈ q.sleep, t ∉ woken → t ∈ q'.sleep
  added : ∀ t ∈ s'.added, t ∈ s.added ∨ t ∈ woken
  source : ∀ t ∈ woken, t ∈ q.blocked ∨ t ∈ q.sleep ∨ target = some t
  notRunning : ∀ t ∈ woken, s.state t ≠ .running
  state : ∀ t, s'.state t = if t ∈ woken then .ready else s.state t
  waiting : ∀ t, t ∉ woken → s'.waitKind t = s.waitKind t ∧ s'.waitKey t = s.waitKey t
  current : s'.current = s.current
  idle : s'.idle = s.idle
  depth : s'.preemptDisableDepth = s.preemptDisableDepth

namespace Wakes

variable {target : Option Tid} {woken woken' : List Tid}

lemma refl (h : s.Tidy q) : Wakes target s q s q [] where
  tidy := h
  ready := (append_nil q.ready).symm
  blocked := List.Sublist.refl q.blocked
  kept := fun _ ht _ => ht
  sleep := List.Sublist.refl q.sleep
  keptSleep := fun _ ht _ => ht
  added := fun _ ht => .inl ht
  source := nofun
  notRunning := nofun
  state := fun _ => (if_neg not_mem_nil).symm
  waiting := fun _ _ => ⟨rfl, rfl⟩
  current := rfl
  idle := rfl
  depth := rfl

lemma trans {s'' : Scheduler} {q'' : Queues} (h : Wakes target s q s' q' woken)
    (h' : Wakes target s' q' s'' q'' woken') :
    Wakes target s q s'' q'' (woken ++ woken') := by
  refine
    { tidy := h'.tidy
      ready := ?_
      blocked := h'.blocked.trans h.blocked
      kept := fun t ht hw => ?_
      sleep := h'.sleep.trans h.sleep
      keptSleep := fun t ht hw => ?_
      added := fun t ht => ?_
      source := fun t ht => ?_
      notRunning := fun t ht => ?_
      state := fun t => ?_
      waiting := fun t ht => ?_
      current := h'.current.trans h.current
      idle := h'.idle.trans h.idle
      depth := h'.depth.trans h.depth }
  · rw [h'.ready, h.ready, append_assoc]
  · rw [mem_append, not_or] at hw
    exact h'.kept t (h.kept t ht hw.1) hw.2
  · rw [mem_append, not_or] at hw
    exact h'.keptSleep t (h.keptSleep t ht hw.1) hw.2
  · rw [mem_append, ← or_assoc]
    exact (h'.added t ht).imp_left (h.added t)
  · rcases mem_append.1 ht with ht | ht
    · exact h.source t ht
    · rcases h'.source t ht with hb | hs | htarget
      · exact .inl (h.blocked.subset hb)
      · exact .inr (.inl (h.sleep.subset hs))
      · exact .inr (.inr htarget)
  · by_cases hw : t ∈ woken
    · exact h.notRunning t hw
    · have hrun := h'.notRunning t ((mem_append.1 ht).resolve_left hw)
      rw [h.state t, if_neg hw] at hrun
      exact hrun
  · rw [h'.state t, h.state t]
    by_cases hw' : t ∈ woken'
    · rw [if_pos hw', if_pos (mem_append_right woken hw')]
    · by_cases hw : t ∈ woken
      · rw [if_neg hw', if_pos hw, if_pos (mem_append_left woken' hw)]
      · rw [if_neg hw', if_neg hw, if_neg]
        rw [mem_append]
        exact not_or_intro hw hw'
  · rw [mem_append, not_or] at ht
    obtain ⟨hkind, hkey⟩ := h.waiting t ht.1
    obtain ⟨hkind', hkey'⟩ := h'.waiting t ht.2
    exact ⟨hkind'.trans hkind, hkey'.trans hkey⟩

/-- A single thread is woken. -/
lemma single (h : s.Tidy q) (ht : t ∉ q.ready) (hidle : s.idle ≠ some t)
    (hsource : t ∈ q.blocked ∨ t ∈ q.sleep ∨ target = some t) (hrun : s.state t ≠ .running)
    (hm : s.MadeReady q t s')
    (hwaiting : ∀ u ≠ t, s'.waitKind u = s.waitKind u ∧ s'.waitKey u = s.waitKey u) :
    Wakes target s q s' ⟨q.ready ++ [t], q.blocked.erase t, q.sleep.erase t⟩ [t] := by
  refine
    { tidy := h.makeReady ht hidle hm
      ready := rfl
      blocked := erase_sublist
      kept := fun u hu hw => (mem_erase_of_ne fun hut => hw (mem_singleton.2 hut)).2 hu
      sleep := erase_sublist
      keptSleep := fun u hu hw =>
        (mem_erase_of_ne fun hut => hw (mem_singleton.2 hut)).2 hu
      added := fun u hu => ?_
      source := fun u hu => ?_
      notRunning := fun u hu => ?_
      state := fun u => ?_
      waiting := fun u hu => hwaiting u fun hut => hu (mem_singleton.2 hut)
      current := hm.rest.current
      idle := hm.rest.idle
      depth := hm.rest.depth }
  · rw [hm.added, Finset.mem_insert] at hu
    exact hu.symm.imp_right mem_singleton.2
  · rw [mem_singleton.1 hu]
    exact hsource
  · rw [mem_singleton.1 hu]
    exact hrun
  · rw [hm.state]
    by_cases hut : u = t
    · rw [hut, update_self, if_pos (mem_singleton_self t)]
    · rw [update_of_ne hut, if_neg fun hmem => hut (mem_singleton.1 hmem)]

end Wakes

/-- A thread that has not ended is made ready, unless it runs or is ready already. -/
lemma nsSchedAdd_wakes (h : s.Tidy q) (t : Tid) :
    ∃ q' woken, Wakes (some t) s q (s.nsSchedAdd t).2 q' woken ∧
      (t ∈ woken → s.state t ≠ .zombie) := by
  rw [nsSchedAdd]
  split_ifs with hrefused
  · exact ⟨q, [], Wakes.refl h, nofun⟩
  · simp only [not_or] at hrefused
    obtain ⟨hqueue, hrunning, hzombie, hflag⟩ := hrefused
    have hready : t ∉ q.ready := fun hmem => hqueue ((h.onQueue t).2 hmem)
    have hidle : s.idle ≠ some t := by
      obtain ⟨i, hi, hiflag, -⟩ := h.idle
      intro hit
      rw [hi] at hit
      exact hflag (Option.some.inj hit ▸ hiflag)
    exact ⟨_, [t], Wakes.single h hready hidle (.inr (.inr rfl)) hrunning
      ⟨rfl, rfl, h.blocked.remove h.length_blocked t, h.sleep.remove h.length_sleep t,
        fun _ _ => rfl, rfl, rfl, ⟨rfl, rfl, rfl, rfl⟩⟩
      fun u hu => ⟨update_of_ne hu _ _, update_of_ne hu _ _⟩, fun _ => hzombie⟩

/-- A thread that waits is woken by its name, and no other is. -/
lemma nsSchedWakeThread_wakes (h : s.Tidy q) (t : Tid) :
    ∃ q' woken, Wakes (some t) s q (s.nsSchedWakeThread t).2 q' woken ∧
      (s.state t = .blocked ∨ s.state t = .sleeping → t ∈ woken) ∧
      (s.state t ≠ .blocked → s.state t ≠ .sleeping → woken = []) := by
  rw [nsSchedWakeThread]
  split_ifs with hrefused
  · exact ⟨q, [], Wakes.refl h, fun hwaits => absurd hwaits (not_or_intro hrefused.1 hrefused.2),
      fun _ _ => rfl⟩
  · have hwaits : s.state t = .blocked ∨ s.state t = .sleeping := by
      by_contra hneither
      rw [not_or] at hneither
      exact hrefused hneither
    have hadded : t ∈ s.added := by
      by_contra hnot
      exact hwaits.elim (h.unadded t hnot).1 (h.unadded t hnot).2
    have hne : s.state t ≠ .ready ∧ s.state t ≠ .running := by
      rcases hwaits with hw | hw
      · rw [hw]
        exact ⟨nofun, nofun⟩
      · rw [hw]
        exact ⟨nofun, nofun⟩
    exact ⟨_, [t], Wakes.single h (h.notMem_ready hne.1) (h.ne_idle hadded) (.inr (.inr rfl)) hne.2
      ⟨rfl, rfl, h.blocked.remove h.length_blocked t, h.sleep.remove h.length_sleep t,
        fun u hu => update_of_ne hu _ _, rfl, (Finset.insert_eq_of_mem hadded).symm,
        ⟨rfl, rfl, rfl, rfl⟩⟩
      fun u hu => ⟨update_of_ne hu _ _, update_of_ne hu _ _⟩, fun _ => mem_singleton_self t,
      fun hb hs => absurd hwaits (not_or_intro hb hs)⟩

/-- The first sleeper becomes ready. -/
lemma wakeSleeper_wakes (h : s.Tidy q) {rest : List Tid} (hsleep : q.sleep = t :: rest) :
    Wakes none s q (s.wakeSleeper t) ⟨q.ready ++ [t], q.blocked, rest⟩ [t] := by
  have hmem : t ∈ q.sleep := hsleep ▸ mem_cons_self
  obtain ⟨hadded, hstate⟩ := h.sleeps t hmem
  have hready : t ∉ q.ready := h.notMem_ready (by simp [hstate])
  have hblocked : t ∉ q.blocked := h.notMem_blocked (by simp [hstate])
  have hunlink : (s.sleep.unlink none t).Lists rest := by
    have hlist : s.sleep.Lists ([] ++ t :: rest) := hsleep ▸ h.sleep
    exact hlist.unlink
  have hwakes : Wakes none s q (s.wakeSleeper t)
      ⟨q.ready ++ [t], q.blocked.erase t, q.sleep.erase t⟩ [t] :=
    Wakes.single h hready (h.ne_idle hadded) (.inr (.inl hmem))
      (by simp [hstate])
      ⟨rfl, rfl, by rw [erase_of_not_mem hblocked]; exact h.blocked,
        by rw [hsleep, erase_cons_head]; exact hunlink, fun u hu => update_of_ne hu _ _, rfl,
        (Finset.insert_eq_of_mem hadded).symm, ⟨rfl, rfl, rfl, rfl⟩⟩ fun _ _ => ⟨rfl, rfl⟩
  rw [erase_of_not_mem hblocked, hsleep, erase_cons_head] at hwakes
  exact hwakes

/-- The loop of `ns_sched_tick` wakes threads. -/
lemma wakeSleepers_wakes (nowNs : ℕ) (rounds : ℕ) (h : s.Tidy q) :
    ∃ q' woken, Wakes none s q (wakeSleepers nowNs rounds s) q' woken := by
  induction rounds generalizing s q with
  | zero => exact ⟨q, [], Wakes.refl h⟩
  | succ rounds ih =>
    rw [wakeSleepers]
    cases hhead : s.sleep.head with
    | none => exact ⟨q, [], Wakes.refl h⟩
    | some t =>
      dsimp only
      split_ifs with hexpired
      · obtain ⟨rest, hrest⟩ : ∃ rest, q.sleep = t :: rest := by
          have hlist : s.sleep.head = q.sleep.head? := Follows.head_eq h.sleep
          rw [hhead] at hlist
          exact head?_eq_some_iff.1 hlist.symm
        have hwakes := wakeSleeper_wakes h hrest
        obtain ⟨q', woken, hrun⟩ := ih hwakes.tidy
        exact ⟨q', [t] ++ woken, hwakes.trans hrun⟩
      · exact ⟨q, [], Wakes.refl h⟩

/-- Accounting for a tick changes the quantum and the request to reschedule only. -/
lemma accountTick_eq (s : Scheduler) :
    s.accountTick =
      { s with
        quantumLeft := s.accountTick.quantumLeft
        reschedulePending := s.accountTick.reschedulePending } := by
  unfold accountTick
  dsimp only
  split_ifs
  · rfl
  · split <;> rfl
  · rfl
  · split <;> rfl

/-- Of what the lists depend on, the accounting changes nothing. -/
lemma accountTick_wakes (h : s.Tidy q) : Wakes none s q s.accountTick q [] := by
  rw [accountTick_eq]
  exact { Wakes.refl h with tidy := h.congr rfl rfl rfl rfl rfl rfl rfl rfl rfl rfl }

/-- The section of `ns_sched_tick` wakes threads. -/
lemma tickSection_wakes (h : s.Tidy q) (nowNs : ℕ) :
    ∃ q' woken, Wakes none s q (s.tickSection nowNs) q' woken := by
  obtain ⟨q', woken, hwakes⟩ := wakeSleepers_wakes nowNs s.added.card h
  exact ⟨q', woken ++ [], hwakes.trans (accountTick_wakes hwakes.tidy)⟩

/-- A blocked thread becomes ready; the cursor stands before it. -/
lemma wakeBlocked_wakes (h : s.Tidy q) {xs ys : List Tid} (hblocked : q.blocked = xs ++ t :: ys) :
    Wakes none s q (s.wakeBlocked xs.getLast? t) ⟨q.ready ++ [t], xs ++ ys, q.sleep⟩ [t] := by
  have hmem : t ∈ q.blocked := by
    rw [hblocked]
    exact mem_append_right xs mem_cons_self
  obtain ⟨hadded, hstate⟩ := h.waits t hmem
  have hready : t ∉ q.ready := h.notMem_ready (by simp [hstate])
  have hsleep : t ∉ q.sleep := h.notMem_sleep (by simp [hstate])
  have hlist : s.blocked.Lists (xs ++ t :: ys) := hblocked ▸ h.blocked
  have herase : q.blocked.erase t = xs ++ ys := by
    have hxs : t ∉ xs := fun hx =>
      (nodup_append.1 hlist.nodup).2.2 t hx t mem_cons_self rfl
    rw [hblocked, erase_append_right _ hxs, erase_cons_head]
  have hwakes : Wakes none s q (s.wakeBlocked xs.getLast? t)
      ⟨q.ready ++ [t], q.blocked.erase t, q.sleep.erase t⟩ [t] :=
    Wakes.single h hready (h.ne_idle hadded) (.inl hmem)
      (by simp [hstate])
      ⟨rfl, rfl, by rw [herase]; exact hlist.unlink,
        by rw [erase_of_not_mem hsleep]; exact h.sleep, fun _ _ => rfl, rfl,
        (Finset.insert_eq_of_mem hadded).symm, ⟨rfl, rfl, rfl, rfl⟩⟩
      fun u hu => ⟨update_of_ne hu _ _, update_of_ne hu _ _⟩
  rw [herase, erase_of_not_mem hsleep] at hwakes
  exact hwakes

/-- The thread waits for the event. -/
def Awaits (s : Scheduler) (kind : WaitKind) (key : ℕ) (t : Tid) : Prop :=
  s.waitKind t = kind ∧ s.waitKey t = key

instance (s : Scheduler) (kind : WaitKind) (key : ℕ) : DecidablePred (s.Awaits kind key) :=
  fun _ => inferInstanceAs (Decidable (_ ∧ _))

/-- The loop wakes the first threads behind its cursor that wait for the event, as many as are left
of the maximum. -/
lemma wakeLoop_wakes (kind : WaitKind) (key maximum rounds : ℕ) (h : s.Tidy q) {xs ys : List Tid}
    (hblocked : q.blocked = xs ++ ys) (hrounds : ys.length ≤ rounds) (count : ℕ) :
    ∃ q', Wakes none s q (wakeLoop kind key maximum rounds s xs.getLast? count).2 q'
      ((ys.filter fun t => s.Awaits kind key t).take (maximum - count)) := by
  induction rounds generalizing s q xs ys count with
  | zero =>
    have hys : ys = [] := length_eq_zero_iff.1 (Nat.le_zero.1 hrounds)
    rw [hys, filter_nil, take_nil]
    exact ⟨q, Wakes.refl h⟩
  | succ rounds ih =>
    have hlist : s.blocked.Lists (xs ++ ys) := hblocked ▸ h.blocked
    rw [wakeLoop, hlist.read_getLast]
    cases ys with
    | nil =>
      rw [filter_nil, take_nil]
      exact ⟨q, Wakes.refl h⟩
    | cons t ys =>
      have hlength : ys.length ≤ rounds := Nat.le_of_succ_le_succ hrounds
      rw [head?_cons]
      dsimp only
      by_cases hcount : count < maximum
      · rw [if_pos hcount]
        by_cases hmatch : s.Awaits kind key t
        · have hwakes := wakeBlocked_wakes h hblocked
          obtain ⟨q', hrest⟩ := ih hwakes.tidy rfl hlength (count + 1)
          have hsame : (ys.filter fun u => (s.wakeBlocked xs.getLast? t).Awaits kind key u) =
              ys.filter fun u => s.Awaits kind key u := by
            refine filter_congr fun u hu => ?_
            have hne : u ∉ [t] := by
              rw [mem_singleton]
              rintro rfl
              exact (nodup_cons.1 (nodup_append.1 hlist.nodup).2.1).1 hu
            obtain ⟨hkind, hkey⟩ := hwakes.waiting u hne
            exact decide_eq_decide.2 (by unfold Awaits; rw [hkind, hkey])
          rw [hsame] at hrest
          have hfields : s.waitKind t = kind ∧ s.waitKey t = key := hmatch
          rw [if_pos hfields, filter_cons_of_pos (by simpa using hmatch),
            show maximum - count = maximum - (count + 1) + 1 by omega, take_succ_cons]
          exact ⟨q', hwakes.trans hrest⟩
        · have hfields : ¬(s.waitKind t = kind ∧ s.waitKey t = key) := hmatch
          have hnext : (xs ++ [t]).getLast? = some t := getLast?_concat
          rw [if_neg hfields, ← hnext, filter_cons_of_neg (by simpa using hmatch)]
          exact ih h (by rw [hblocked, append_assoc, singleton_append]) hlength count
      · rw [if_neg hcount, Nat.sub_eq_zero_of_le (Nat.le_of_not_lt hcount), take_zero]
        exact ⟨q, Wakes.refl h⟩

/-- `ns_sched_wake` wakes the first threads that wait for the event, up to the maximum. -/
lemma nsSchedWake_wakes (h : s.Tidy q) (kind : WaitKind) (key maximum : ℕ) :
    ∃ q', Wakes none s q (s.nsSchedWake kind key maximum).2 q'
      (if kind = .none then []
        else (q.blocked.filter fun t => s.Awaits kind key t).take maximum) := by
  rw [nsSchedWake]
  by_cases hkind : kind = .none
  · rw [if_pos (.inl hkind), if_pos hkind]
    exact ⟨q, Wakes.refl h⟩
  by_cases hmaximum : maximum = 0
  · rw [if_pos (.inr hmaximum), if_neg hkind, hmaximum, take_zero]
    exact ⟨q, Wakes.refl h⟩
  rw [if_neg (not_or_intro hkind hmaximum), if_neg hkind]
  have hsplit : q.blocked = [] ++ q.blocked := rfl
  exact wakeLoop_wakes kind key maximum s.added.card h hsplit h.length_blocked 0

/-! ### Sections of the thread that runs -/

/-- The thread that runs, not the idle one, has moved to the state `x`. -/
structure Moved (t : Tid) (x : ThreadState) (s s' : Scheduler) (q' : Queues) : Prop where
  current : s.current = some t
  notIdle : s.idle ≠ some t
  tidy : s'.Tidy q'
  state : s'.state = update s.state t x
  added : s'.added = s.added
  rest : SameRest s s'

/-- The thread that runs has its new state. -/
lemma Moved.state_current (h : Moved t x s s' q') {u : Tid} (hu : s.current = some u) :
    s'.state u = x := by
  obtain rfl : t = u := Option.some.inj (h.current.symm.trans hu)
  rw [h.state, update_self]

/-- The thread that runs moves to another state and the list for it. -/
lemma Tidy.moveCurrent (h : s.Tidy q) (hcurrent : s.current = some t) (hidle : s.idle ≠ some t)
    (hformed : s'.Formed q') (hjoins : Joins t x q q')
    (hstate : s'.state = update s.state t x) (hadded : s'.added = s.added)
    (hrest : SameRest s s') : Moved t x s s' q' := by
  have ht := h.added_of_current hcurrent hidle
  have hcurrent' : s'.current = some t := hrest.current.trans hcurrent
  refine ⟨hcurrent, hidle, ?_, hstate, hadded, hrest⟩
  refine h.move hidle hformed hjoins hstate (hadded.trans (Finset.insert_eq_of_mem ht).symm)
    hrest.idle hrest.idleFlag (fun u hu hrun => ?_) fun u hu => ?_
  · by_cases hut : u = t
    · rw [hut]
      exact hcurrent'
    · rw [hstate, update_of_ne hut] at hrun
      have hsame := h.running u (hadded ▸ hu) hrun
      rw [hcurrent] at hsame
      exact absurd (Option.some.inj hsame).symm hut
  · rw [hcurrent'] at hu
    rw [← Option.some.inj hu, hadded]
    exact .inl ht

/-- The thread that runs, if it is not the idle one, is in no list. -/
def CurrentOut (s : Scheduler) (q : Queues) : Prop :=
  ∀ t, s.current = some t → s.idle ≠ some t → t ∉ q.ready ∧ t ∉ q.blocked ∧ t ∉ q.sleep

/-- `ns_sched_prepare_block` does nothing, or puts the thread that runs at the head of the blocked
threads. -/
lemma nsSchedPrepareBlock_cases (h : s.Tidy q) (kind : WaitKind) (key : ℕ) (hout : s.CurrentOut q) :
    s.nsSchedPrepareBlock kind key = s ∧
        (kind = .none ∨ ∀ t, s.current = some t → s.idle = some t) ∨
      ∃ t, Moved t .blocked s (s.nsSchedPrepareBlock kind key) ⟨q.ready, t :: q.blocked, q.sleep⟩ ∧
        (s.nsSchedPrepareBlock kind key).Awaits kind key t ∧
        ∀ u, u ≠ t → (s.nsSchedPrepareBlock kind key).waitKind u = s.waitKind u ∧
          (s.nsSchedPrepareBlock kind key).waitKey u = s.waitKey u := by
  rw [nsSchedPrepareBlock]
  cases hcurrent : s.current with
  | none => exact .inl ⟨rfl, .inr nofun⟩
  | some t =>
    dsimp only
    split_ifs with hnone
    · refine .inl ⟨rfl, hnone.imp_right fun hidle u hu => ?_⟩
      rw [← hu]
      exact hidle
    · rw [not_or] at hnone
      obtain ⟨hready, hblocked, hsleep⟩ := hout t hcurrent hnone.2
      have hlist : s.blocked.Lists ([] ++ q.blocked) := h.blocked
      refine .inr ⟨t, ?_, ⟨update_self .., update_self ..⟩,
        fun u hu => ⟨update_of_ne hu _ _, update_of_ne hu _ _⟩⟩
      exact h.moveCurrent hcurrent hnone.2
        ⟨h.runs, hlist.link hblocked, h.sleep, h.sorted, h.onQueue⟩
        ⟨fun u hu => ⟨id, fun hmem => (mem_cons.1 hmem).resolve_left hu, id⟩,
          fun hmem => absurd hmem hready, fun _ => rfl, fun hmem => absurd hmem hsleep⟩ rfl rfl
        ⟨rfl, rfl, rfl, rfl⟩

/-- `ns_sched_terminate_current` does nothing, or ends the thread that runs. -/
lemma terminateSection_cases (h : s.Tidy q) (hout : s.CurrentOut q) :
    s.terminateSection.2 = s ∨
      ∃ t, Moved t .zombie s s.terminateSection.2 q ∧
        s.terminateSection.2.waitKind = s.waitKind ∧ s.terminateSection.2.waitKey = s.waitKey := by
  rw [terminateSection]
  cases hcurrent : s.current with
  | none => exact .inl rfl
  | some t =>
    dsimp only
    split_ifs with hidle
    · exact .inl rfl
    · obtain ⟨hready, hblocked, hsleep⟩ := hout t hcurrent hidle
      refine .inr ⟨t, ?_, rfl, rfl⟩
      exact h.moveCurrent hcurrent hidle ⟨h.runs, h.blocked, h.sleep, h.sorted, h.onQueue⟩
        ⟨fun u _ => ⟨id, id, id⟩, fun hmem => absurd hmem hready, fun hmem => absurd hmem hblocked,
          fun hmem => absurd hmem hsleep⟩ rfl rfl ⟨rfl, rfl, rfl, rfl⟩

/-- The place that `ns_sched_sleep_until` looks for keeps the sleepers sorted by deadline. -/
lemma sorted_insert {deadline : Tid → ℕ} {d : ℕ} {l : List Tid}
    (h : l.Pairwise fun u v => deadline u ≤ deadline v) (ht : t ∉ l) :
    ((l.takeWhile fun u => !decide (d < deadline u)) ++
      t :: l.dropWhile fun u => !decide (d < deadline u)).Pairwise fun u v =>
        update deadline t d u ≤ update deadline t d v := by
  induction l with
  | nil => simp
  | cons a l ih =>
    obtain ⟨ha, hl⟩ := pairwise_cons.1 h
    have hat : a ≠ t := fun hat => ht (hat ▸ mem_cons_self)
    have htl : t ∉ l := fun hmem => ht (mem_cons_of_mem a hmem)
    by_cases hd : d < deadline a
    · simp only [takeWhile_cons, dropWhile_cons, hd, decide_true, Bool.not_true,
        Bool.false_eq_true, if_false, nil_append]
      refine pairwise_cons.2 ⟨fun b hb => ?_, h.imp_of_mem fun {b c} hb hc hbc => ?_⟩
      · rw [update_self, update_of_ne (ne_of_mem_of_not_mem hb ht)]
        rcases mem_cons.1 hb with rfl | hb
        · exact hd.le
        · exact hd.le.trans (ha b hb)
      · rw [update_of_ne (ne_of_mem_of_not_mem hb ht),
          update_of_ne (ne_of_mem_of_not_mem hc ht)]
        exact hbc
    · simp only [takeWhile_cons, dropWhile_cons, hd, decide_false, Bool.not_false,
        if_true, cons_append]
      refine pairwise_cons.2 ⟨fun b hb => ?_, ih hl htl⟩
      rw [update_of_ne hat]
      by_cases hbt : b = t
      · rw [hbt, update_self]
        exact Nat.le_of_not_lt hd
      · rw [update_of_ne hbt]
        refine ha b ?_
        rcases mem_append.1 hb with hb | hb
        · exact (List.takeWhile_prefix _).subset hb
        · exact (dropWhile_suffix _).subset ((mem_cons.1 hb).resolve_left hbt)

/-- `ns_sched_sleep_until` does nothing, or puts the thread that runs among the sleepers. -/
lemma sleepSection_cases (h : s.Tidy q) (deadlineNs : ℕ) (hout : s.CurrentOut q) :
    s.sleepSection deadlineNs = (false, s) ∧ (∀ t, s.current = some t → s.idle = some t) ∨
      ∃ t sleep, Moved t .sleeping s (s.sleepSection deadlineNs).2 ⟨q.ready, q.blocked, sleep⟩ ∧
        (s.sleepSection deadlineNs).1 = decide (s.preemptDisableDepth = 0) ∧
        (∀ u, u ∈ sleep ↔ u = t ∨ u ∈ q.sleep) ∧
        (s.sleepSection deadlineNs).2.waitKind = s.waitKind ∧
        (s.sleepSection deadlineNs).2.waitKey = s.waitKey := by
  rw [sleepSection]
  cases hcurrent : s.current with
  | none => exact .inl ⟨rfl, nofun⟩
  | some t =>
    dsimp only
    split_ifs with hidle
    · refine .inl ⟨rfl, fun u hu => ?_⟩
      rw [← hu]
      exact hidle
    · obtain ⟨hready, hblocked, hsleep⟩ := hout t hcurrent hidle
      have hnil : s.sleep.Lists ([] ++ q.sleep) := h.sleep
      have hseek := hnil.seek (fun u => decide (deadlineNs < s.wakeDeadline u)) h.length_sleep
      rw [getLast?_nil, nil_append] at hseek
      rw [hseek]
      have hsplit := takeWhile_append_dropWhile
        (p := fun u => !decide (deadlineNs < s.wakeDeadline u)) (l := q.sleep)
      have hsorted := sorted_insert (d := deadlineNs) h.sorted hsleep
      generalize (q.sleep.takeWhile fun u => !decide (deadlineNs < s.wakeDeadline u)) = early
        at hsplit hsorted
      generalize (q.sleep.dropWhile fun u => !decide (deadlineNs < s.wakeDeadline u)) = late
        at hsplit hsorted
      have hlist : s.sleep.Lists (early ++ late) := hsplit ▸ h.sleep
      have hmem : ∀ u, u ∈ early ++ t :: late ↔ u = t ∨ u ∈ q.sleep := by
        intro u
        rw [← hsplit, mem_append, mem_cons, mem_append]
        exact or_left_comm
      refine .inr ⟨t, early ++ t :: late, ?_, rfl, hmem, rfl, rfl⟩
      exact h.moveCurrent hcurrent hidle
        ⟨h.runs, h.blocked, hlist.link (by rw [hsplit]; exact hsleep), hsorted, h.onQueue⟩
        ⟨fun u hu => ⟨id, id, fun hin => ((hmem u).1 hin).resolve_left hu⟩,
          fun hin => absurd hin hready, fun hin => absurd hin hblocked, fun _ => rfl⟩ rfl rfl
        ⟨rfl, rfl, rfl, rfl⟩

/-- The ready list without a thread. -/
lemma readyRemove_spec (h : s.Tidy q) (t : Tid) :
    (s.readyRemove t).ready.Runs (q.ready.erase t) ∧
      ∀ u, (s.readyRemove t).onRunQueue u = true ↔ u ∈ q.ready.erase t := by
  have hnodup := h.runs.nodup
  rw [readyRemove]
  split_ifs with hoff
  · have hnot : t ∉ q.ready := fun hmem => by
      rw [(h.onQueue t).2 hmem] at hoff
      cases hoff
    rw [erase_of_not_mem hnot]
    exact ⟨h.runs, h.onQueue⟩
  · have hmem : t ∈ q.ready := (h.onQueue t).1 (by simpa using hoff)
    refine ⟨h.runs.remove hmem, fun u => ?_⟩
    rw [hnodup.mem_erase_iff]
    by_cases hu : u = t
    · simp [hu]
    · dsimp only
      rw [update_of_ne hu, h.onQueue, and_iff_right hu]

/-- Taking a thread out of the ready list changes that list only. -/
lemma readyRemove_eq (s : Scheduler) (t : Tid) :
    s.readyRemove t =
      { s with
        ready := (s.readyRemove t).ready
        onRunQueue := (s.readyRemove t).onRunQueue } := by
  unfold readyRemove
  split_ifs <;> rfl

/-- `ns_sched_commit_block` finds the thread that runs blocked, or takes it from the ready list to
let it run on, or does nothing. -/
lemma commitSection_cases (h : s.Tidy q) :
    s.commitSection = (false, s) ∧
        (∀ t, s.current = some t → s.state t ≠ .blocked ∧ t ∉ q.ready) ∨
      (∃ t, s.current = some t ∧ s.state t = .blocked ∧
        s.commitSection =
          (decide (s.preemptDisableDepth = 0), { s with reschedulePending := true })) ∨
      ∃ t, Moved t .running s s.commitSection.2 ⟨q.ready.erase t, q.blocked, q.sleep⟩ ∧
        t ∈ q.ready ∧ s.commitSection.1 = false ∧
        s.commitSection.2.waitKind = s.waitKind ∧ s.commitSection.2.waitKey = s.waitKey := by
  rw [commitSection]
  cases hcurrent : s.current with
  | none => exact .inl ⟨rfl, nofun⟩
  | some t =>
    dsimp only
    by_cases hblocked : s.state t = .blocked
    · rw [if_pos hblocked]
      exact .inr (.inl ⟨t, rfl, hblocked, rfl⟩)
    rw [if_neg hblocked]
    by_cases hwoken : s.state t = .ready ∧ s.onRunQueue t = true
    · have hmem : t ∈ q.ready := (h.onQueue t).1 hwoken.2
      have hidle := h.ne_idle (h.ready t hmem).1
      have hblocked' : t ∉ q.blocked := h.notMem_blocked hblocked
      have hsleep' : t ∉ q.sleep :=
        h.notMem_sleep (by simp [hwoken.1])
      obtain ⟨hruns, hqueue⟩ := readyRemove_spec h t
      rw [if_pos hwoken, readyRemove_eq]
      refine .inr (.inr ⟨t, ?_, hmem, rfl, rfl, rfl⟩)
      exact h.moveCurrent hcurrent hidle ⟨hruns, h.blocked, h.sleep, h.sorted, hqueue⟩
        ⟨fun u hu => ⟨mem_of_mem_erase, id, id⟩, fun hin => absurd hin h.runs.nodup.not_mem_erase,
          fun hin => absurd hin hblocked', fun hin => absurd hin hsleep'⟩ rfl rfl
        ⟨rfl, rfl, rfl, rfl⟩
    · rw [if_neg hwoken]
      refine .inl ⟨rfl, fun u hu => ?_⟩
      obtain rfl := Option.some.inj hu
      exact ⟨hblocked, fun hmem => hwoken ⟨(h.ready t hmem).2, (h.onQueue t).2 hmem⟩⟩

/-- `ns_sched_remove` changes the lists and the request to reschedule only. -/
lemma nsSchedRemove_eq (s : Scheduler) (t : Tid) :
    s.nsSchedRemove t =
      { s with
        ready := (s.readyRemove t).ready
        onRunQueue := (s.readyRemove t).onRunQueue
        blocked := s.blocked.remove s.added.card t
        sleep := s.sleep.remove s.added.card t
        reschedulePending := s.reschedulePending || decide (s.current = some t) } := by
  unfold nsSchedRemove
  rw [readyRemove_eq]
  by_cases hcurrent : s.current = some t
  · simp [waitRemove, hcurrent]
  · simp [waitRemove, hcurrent]

/-- `ns_sched_remove` takes a thread out of all lists. -/
lemma nsSchedRemove_tidy (h : s.Tidy q) (t : Tid) :
    (s.nsSchedRemove t).Tidy ⟨q.ready.erase t, q.blocked.erase t, q.sleep.erase t⟩ := by
  obtain ⟨hruns, hqueue⟩ := readyRemove_spec h t
  rw [nsSchedRemove_eq]
  exact h.shrink hruns (h.blocked.remove h.length_blocked t) (h.sleep.remove h.length_sleep t)
    hqueue erase_subset erase_subset erase_sublist rfl rfl rfl rfl rfl rfl

/-! ### Switching -/

/-- The thread that a reschedule puts at the end of the ready list, if it does. -/
def requeued (s : Scheduler) : List Tid :=
  match s.current with
  | none => []
  | some previous => if s.idle ≠ some previous ∧ s.state previous = .running then [previous] else []

/-- The thread that a reschedule puts back into the ready list. -/
lemma mem_requeued : t ∈ s.requeued ↔ s.current = some t ∧ s.idle ≠ some t ∧
    s.state t = .running := by
  unfold requeued
  cases s.current with
  | none => simp
  | some previous =>
    dsimp only
    split_ifs with h
    · rw [mem_singleton]
      constructor
      · rintro rfl
        exact ⟨rfl, h⟩
      · exact fun ht => (Option.some.inj ht.1).symm
    · refine iff_of_false not_mem_nil fun ht => h ?_
      rw [Option.some.inj ht.1]
      exact ht.2

/-- The state of the idle thread is its own affair. -/
lemma Tidy.setIdle {i : Tid} {x : ThreadState} (h : s.Tidy q) (hi : s.idle = some i)
    (hx : x ≠ .blocked ∧ x ≠ .sleeping) (hstate : s'.state = update s.state i x)
    (hcurrent : s'.current = s.current ∨
      s'.current = some i ∧ ∀ t ∈ s.added, s.state t ≠ .running)
    (hready : s'.ready = s.ready) (hqueue : s'.onRunQueue = s.onRunQueue)
    (hblocked : s'.blocked = s.blocked) (hsleep : s'.sleep = s.sleep)
    (hdeadline : s'.wakeDeadline = s.wakeDeadline) (hadded : s'.added = s.added)
    (hidle : s'.idle = s.idle) (hflag : s'.idleFlag = s.idleFlag) : s'.Tidy q := by
  have hsame : ∀ t ∈ s.added, s'.state t = s.state t := by
    intro t ht
    rw [hstate, update_of_ne]
    rintro rfl
    exact h.ne_idle ht hi
  refine
    { runs := hready ▸ h.runs
      blocked := hblocked ▸ h.blocked
      sleep := hsleep ▸ h.sleep
      sorted := hdeadline ▸ h.sorted
      onQueue := hqueue ▸ h.onQueue
      ready := fun t ht => ?_
      waits := fun t ht => ?_
      sleeps := fun t ht => ?_
      running := fun t ht hrun => ?_
      unadded := fun t ht => ?_
      idle := ?_
      current := fun t ht => ?_ }
  · obtain ⟨hin, hy⟩ := h.ready t ht
    exact ⟨hadded ▸ hin, (hsame t hin).trans hy⟩
  · obtain ⟨hin, hy⟩ := h.waits t ht
    exact ⟨hadded ▸ hin, (hsame t hin).trans hy⟩
  · obtain ⟨hin, hy⟩ := h.sleeps t ht
    exact ⟨hadded ▸ hin, (hsame t hin).trans hy⟩
  · rw [hadded] at ht
    rw [hsame t ht] at hrun
    rcases hcurrent with heq | ⟨-, hnone⟩
    · rw [heq]
      exact h.running t ht hrun
    · exact absurd hrun (hnone t ht)
  · rw [hadded] at ht
    rw [hstate]
    by_cases hti : t = i
    · rw [hti, update_self]
      exact hx
    · rw [update_of_ne hti]
      exact h.unadded t ht
  · rw [hidle, hflag, hadded]
    exact h.idle
  · rw [hadded, hidle]
    rcases hcurrent with heq | ⟨heq, -⟩
    · exact h.current t (heq ▸ ht)
    · rw [heq] at ht
      exact .inr (hi.trans ht)

/-- A switch leaves this of the scheduler as it was. -/
structure Switched (s s' : Scheduler) : Prop where
  idle : s'.idle = s.idle
  depth : s'.preemptDisableDepth = s.preemptDisableDepth
  waitKind : s'.waitKind = s.waitKind
  waitKey : s'.waitKey = s.waitKey
  added : s'.added = s.added
  state : ∀ u, s'.state u = s.state u ∨ s'.state u = .ready ∨ s'.state u = .running
  others : ∀ u, s.idle ≠ some u →
    s'.state u = .running ∨ s'.state u = if u ∈ s.requeued then .ready else s.state u

/-- A thread that is made ready or running. -/
lemma update_awake {state state' : Tid → ThreadState} (n : Tid) (hx : x = .ready ∨ x = .running)
    (h : ∀ u, state' u = state u ∨ state' u = .ready ∨ state' u = .running) (u : Tid) :
    update state' n x u = state u ∨ update state' n x u = .ready ∨
      update state' n x u = .running := by
  by_cases hun : u = n
  · rw [hun, update_self]
    exact .inr hx
  · rw [update_of_ne hun]
    exact h u

/-- The thread that has run is put aside: no added thread is running then. -/
lemma requeue_tidy (h : s.Tidy q) :
    s.requeue.Tidy ⟨q.ready ++ s.requeued, q.blocked, q.sleep⟩ ∧
      (∀ t ∈ s.requeue.added, s.requeue.state t ≠ .running) ∧ Switched s s.requeue := by
  rw [requeue, requeued]
  cases hcurrent : s.current with
  | none =>
    refine ⟨?_, fun t ht hrun => ?_, rfl, rfl, rfl, rfl, rfl, fun _ => .inl rfl, fun u _ => ?_⟩
    · rw [append_nil]
      exact h
    · have hcur := h.running t ht hrun
      rw [hcurrent] at hcur
      cases hcur
    · refine .inr (if_neg fun hmem => ?_).symm
      have hcur := (mem_requeued.1 hmem).1
      rw [hcurrent] at hcur
      cases hcur
  | some t =>
    dsimp only
    have hleft : ∀ u, u ≠ t → u ∉ s.requeued := fun u hne hmem =>
      hne (Option.some.inj ((mem_requeued.1 hmem).1.symm.trans hcurrent))
    have hother : ∀ u ∈ s.added, u ≠ t → s.state u ≠ .running := by
      intro u hu hne hrun
      have heq := h.running u hu hrun
      rw [hcurrent] at heq
      exact hne (Option.some.inj heq).symm
    have hstate := update_awake t (.inl rfl) fun u => .inl (Eq.refl (s.state u))
    by_cases hrun : s.idle ≠ some t ∧ s.state t = .running
    · rw [if_pos hrun, if_pos hrun]
      have hadded := h.added_of_current hcurrent hrun.1
      have hready : t ∉ q.ready :=
        h.notMem_ready (by simp [hrun.2])
      have hblocked : t ∉ q.blocked :=
        h.notMem_blocked (by simp [hrun.2])
      have hsleep : t ∉ q.sleep :=
        h.notMem_sleep (by simp [hrun.2])
      have htidy : ((s.setState t .ready).readyInsertTail t).Tidy
          ⟨q.ready ++ [t], q.blocked.erase t, q.sleep.erase t⟩ :=
        h.makeReady hready hrun.1
          ⟨rfl, rfl, by rw [erase_of_not_mem hblocked]; exact h.blocked,
            by rw [erase_of_not_mem hsleep]; exact h.sleep, fun _ _ => rfl, rfl,
            (Finset.insert_eq_of_mem hadded).symm, ⟨rfl, rfl, rfl, rfl⟩⟩
      rw [erase_of_not_mem hblocked, erase_of_not_mem hsleep] at htidy
      refine ⟨htidy, fun u hu => ?_, rfl, rfl, rfl, rfl, rfl, hstate, fun u _ => .inr ?_⟩
      · show update s.state t .ready u ≠ .running
        by_cases hne : u = t
        · rw [hne, update_self]
          nofun
        · rw [update_of_ne hne]
          exact hother u hu hne
      · show update s.state t .ready u = _
        by_cases hne : u = t
        · rw [hne, update_self, if_pos (mem_requeued.2 ⟨hcurrent, hrun⟩)]
        · rw [update_of_ne hne, if_neg (hleft u hne)]
    · have hnone : t ∉ s.requeued := fun hmem => hrun (mem_requeued.1 hmem).2
      rw [if_neg hrun, if_neg hrun, append_nil]
      split_ifs with hidle
      · refine ⟨h.setIdle hidle ⟨by decide, by decide⟩ rfl
          (.inl rfl) rfl rfl rfl rfl rfl rfl rfl rfl, fun u hu => ?_, rfl, rfl, rfl,
          rfl, rfl, hstate, fun u hu => .inr ?_⟩
        · have hne : u ≠ t := by
            rintro rfl
            exact h.ne_idle hu hidle
          show update s.state t .ready u ≠ .running
          rw [update_of_ne hne]
          exact hother u hu hne
        · have hne : u ≠ t := by
            rintro rfl
            exact hu hidle
          show update s.state t .ready u = _
          rw [update_of_ne hne, if_neg (hleft u hne)]
      · refine ⟨h, fun u hu => ?_, rfl, rfl, rfl, rfl, rfl, fun _ => .inl rfl, fun u _ => .inr ?_⟩
        · by_cases hne : u = t
          · rw [hne]
            exact fun hr => hrun ⟨hidle, hr⟩
          · exact hother u hu hne
        · by_cases hne : u = t
          · rw [hne, if_neg hnone]
          · rw [if_neg (hleft u hne)]

/-- What `switch_to` does to the scheduler. -/
lemma switchTo_eq {next : Option Tid} {n : Tid} (hnext : next.or s.idle = some n) :
    s.switchTo next =
      { s.setState n .running with
        quantumLeft := update s.quantumLeft n s.quantumTicks
        current := some n } := by
  rw [switchTo, hnext]
  dsimp only
  split_ifs with hcurrent
  · rw [← hcurrent]
    rfl
  · rfl

/-- `ns_sched_reschedule` takes the first thread of the ready list, at the end of which the thread
that has run may have been put, or the idle thread if there is none. -/
lemma nsSchedReschedule_tidy (h : s.Tidy q) (hdepth : s.preemptDisableDepth = 0) :
    ∃ next rest, s.nsSchedReschedule.Tidy ⟨rest, q.blocked, q.sleep⟩ ∧
      s.nsSchedReschedule.current = some next ∧ s.nsSchedReschedule.state next = .running ∧
      (q.ready ++ s.requeued = next :: rest ∨
        q.ready ++ s.requeued = [] ∧ rest = [] ∧ s.idle = some next) ∧
      Switched s s.nsSchedReschedule := by
  rw [nsSchedReschedule, if_neg (not_not.2 hdepth)]
  obtain ⟨htidy, hnone, hswitched⟩ := requeue_tidy h
  generalize s.requeue = s1 at htidy hnone hswitched
  generalize q.ready ++ s.requeued = queue at htidy
  have hstate := fun n => update_awake n (.inr rfl) hswitched.state
  have hothers : ∀ n u, s.idle ≠ some u → update s1.state n .running u = .running ∨
      update s1.state n .running u = if u ∈ s.requeued then .ready else s.state u := by
    intro n u hu
    by_cases hun : u = n
    · rw [hun, update_self]
      exact .inl rfl
    · rw [update_of_ne hun]
      exact hswitched.others u hu
  rw [readyPop]
  cases queue with
  | nil =>
    obtain ⟨i, hi, -, -⟩ := htidy.idle
    have hhead : s1.ready.head = none := htidy.runs.head_eq
    rw [hhead]
    have hor : (none : Option Tid).or { s1 with reschedulePending := false }.idle = some i := hi
    rw [switchTo_eq hor]
    exact ⟨i, [], htidy.setIdle hi ⟨by decide, by decide⟩ rfl
      (.inr ⟨rfl, hnone⟩) rfl rfl rfl rfl rfl rfl rfl rfl, rfl, update_self ..,
      .inr ⟨rfl, rfl, hswitched.idle.symm.trans hi⟩, hswitched.idle, hswitched.depth,
      hswitched.waitKind, hswitched.waitKey, hswitched.added, hstate i, hothers i⟩
  | cons x xs =>
    have hmem : x ∈ x :: xs := mem_cons_self
    obtain ⟨hx, hxs⟩ := nodup_cons.1 htidy.runs.nodup
    obtain ⟨hadded, hready⟩ := htidy.ready x hmem
    have hhead : s1.ready.head = some x := htidy.runs.head_eq
    rw [hhead]
    dsimp only
    obtain ⟨hruns, hqueue⟩ := readyRemove_spec htidy x
    rw [erase_cons_head] at hruns hqueue
    rw [switchTo_eq (n := x) rfl, readyRemove_eq]
    refine ⟨x, xs, ?_, rfl, update_self .., .inl rfl, hswitched.idle, hswitched.depth,
      hswitched.waitKind, hswitched.waitKey, hswitched.added, hstate x, hothers x⟩
    refine htidy.move (htidy.ne_idle hadded)
      ⟨hruns, htidy.blocked, htidy.sleep, htidy.sorted, hqueue⟩
      ⟨fun u _ => ⟨mem_cons_of_mem x, id, id⟩, fun hin => absurd hin hx, fun hin => ?_,
        fun hin => ?_⟩ rfl
      (Finset.insert_eq_of_mem hadded).symm rfl rfl (fun u hu hrun => ?_) fun u hu => .inl ?_
    · exact absurd hin (htidy.notMem_blocked (by simp [hready]))
    · exact absurd hin (htidy.notMem_sleep (by simp [hready]))
    · by_cases hux : u = x
      · rw [hux]
      · have hsame : update s1.state x .running u = .running := hrun
        rw [update_of_ne hux] at hsame
        exact absurd hsame (hnone u hu)
    · rw [← Option.some.inj hu]
      exact hadded

/-- The step is a reschedule that completes. -/
def Completes (s : Scheduler) (op : SchedOp) : Prop :=
  (op = .event .reschedule ∨ op = .event .finish) ∧ s.preemptDisableDepth = 0

end Scheduler

/-! ### Runs -/

/-- The thread is in one of the lists. -/
def Queues.Has (q : Queues) (t : Tid) : Prop := t ∈ q.ready ∨ t ∈ q.blocked ∨ t ∈ q.sleep

namespace SchedRun

open Scheduler

/-- The thread that runs is running, or is to reschedule, or has prepared to block, or it was
removed while it waited or has ended. -/
def Settled (r : SchedRun) (q : Queues) (t : Tid) : Prop :=
  r.sched.state t = .running ∨ r.inCall t = true ∨
    r.prepared t = true ∧ (r.sched.state t = .blocked ∨ r.sched.state t = .ready) ∨
    ¬q.Has t ∧ (r.sched.state t = .ready ∨ r.sched.state t = .zombie)

/-- The lists are in order, and so is the thread that runs. -/
structure Tidy (r : SchedRun) (q : Queues) : Prop where
  sched : r.sched.Tidy q
  current : ∀ t, r.sched.current = some t → r.sched.idle ≠ some t → r.Settled q t

variable {r : SchedRun} {q : Queues} {t : Tid}

/-- A thread that is not in the middle of anything is in no list. -/
lemma Tidy.out_of_free (h : r.Tidy q) (hfree : r.Free) : r.sched.CurrentOut q := by
  intro t ht hne
  obtain ⟨hprepared, hinCall⟩ := hfree t ht
  rcases h.current t ht hne with hrun | hcall | ⟨hprep, -⟩ | ⟨hout, -⟩
  · refine ⟨h.sched.notMem_ready ?_, h.sched.notMem_blocked ?_, h.sched.notMem_sleep ?_⟩ <;>
      rw [hrun] <;> nofun
  · rw [hinCall] at hcall
    cases hcall
  · rw [hprepared] at hprep
    cases hprep
  · unfold Queues.Has at hout
    rw [not_or, not_or] at hout
    exact hout

/-- A section that anyone may run leaves the thread that runs in order, if one that it is about and
that runs is in the middle of something. -/
lemma Tidy.of_wakes (h : r.Tidy q) {target : Option Tid} {s' : Scheduler} {q' : Queues}
    {woken : List Tid} (hwakes : Wakes target r.sched q s' q' woken)
    (htarget : ∀ t, target = some t → t ∈ woken → r.sched.current = some t →
      r.sched.state t = .ready ∨ r.sched.state t = .zombie →
      r.prepared t = true ∨ r.inCall t = true) :
    ({ r with sched := s' } : SchedRun).Tidy q' := by
  refine ⟨hwakes.tidy, fun t ht hne => ?_⟩
  have ht' : r.sched.current = some t := hwakes.current ▸ ht
  have hne' : r.sched.idle ≠ some t := hwakes.idle ▸ hne
  have hstate : s'.state t = if t ∈ woken then .ready else r.sched.state t := hwakes.state t
  split_ifs at hstate with hw
  · rcases h.current t ht' hne' with hrun | hcall | ⟨hprep, -⟩ | ⟨hout, hrest⟩
    · exact absurd hrun (hwakes.notRunning t hw)
    · exact .inr (.inl hcall)
    · exact .inr (.inr (.inl ⟨hprep, .inr hstate⟩))
    · rcases hwakes.source t hw with hb | hs | htar
      · exact absurd (.inr (.inl hb)) hout
      · exact absurd (.inr (.inr hs)) hout
      · rcases htarget t htar hw ht' hrest with hprep | hcall
        · exact .inr (.inr (.inl ⟨hprep, .inr hstate⟩))
        · exact .inr (.inl hcall)
  · have hhas : q'.Has t → q.Has t := by
      rintro (hr | hb | hs)
      · rw [hwakes.ready, mem_append, or_iff_left hw] at hr
        exact .inl hr
      · exact .inr (.inl (hwakes.blocked.subset hb))
      · exact .inr (.inr (hwakes.sleep.subset hs))
    unfold Settled
    rw [hstate]
    exact (h.current t ht' hne').imp_right
      (.imp_right (.imp_right fun hout => ⟨fun hin => hout.1 (hhas hin), hout.2⟩))

/-- What the threads and the lists depend on is as it was. -/
structure Still (s s' : Scheduler) : Prop where
  state : s'.state = s.state
  current : s'.current = s.current
  idle : s'.idle = s.idle
  waitKind : s'.waitKind = s.waitKind
  waitKey : s'.waitKey = s.waitKey

/-- What a step does to the threads and the lists. -/
inductive Effect (s : Scheduler) (q : Queues) (s' : Scheduler) (q' : Queues) : SchedOp → Prop
  | still (op : SchedOp) (hstill : Still s s') (hq : q' = q)
      (hop : op = .event .reschedule ∨ op = .event .finish → s.preemptDisableDepth ≠ 0) :
      Effect s q s' q' op
  | add (t : Tid) (woken : List Tid) (hwakes : Wakes (some t) s q s' q' woken) :
      Effect s q s' q' (.event (.add t))
  | tick (nowNs : ℕ) (woken : List Tid) (hwakes : Wakes none s q s' q' woken) :
      Effect s q s' q' (.event (.tick nowNs))
  | wake (kind : WaitKind) (key maximum : ℕ)
      (hwakes : Wakes none s q s' q' (if kind = .none then []
        else (q.blocked.filter fun t => s.Awaits kind key t).take maximum)) :
      Effect s q s' q' (.event (.wake kind key maximum))
  | wakeThread (t : Tid) (woken : List Tid) (hwakes : Wakes (some t) s q s' q' woken)
      (hwaits : s.state t = .blocked ∨ s.state t = .sleeping → t ∈ woken)
      (hother : s.state t ≠ .blocked → s.state t ≠ .sleeping → woken = []) :
      Effect s q s' q' (.event (.wakeThread t))
  | block (kind : WaitKind) (key : ℕ) (t : Tid) (hcurrent : s.current = some t)
      (hidle : s.idle ≠ some t) (hq : q' = ⟨q.ready, t :: q.blocked, q.sleep⟩)
      (hstate : s'.state = update s.state t .blocked)
      (hcurrent' : s'.current = s.current)
      (hidle' : s'.idle = s.idle)
      (hwaiting : ∀ u, u ≠ t → s'.waitKind u = s.waitKind u ∧ s'.waitKey u = s.waitKey u) :
      Effect s q s' q' (.event (.prepareBlock kind key))
  | sleep (deadlineNs : ℕ) (t : Tid) (sleep : List Tid) (hcurrent : s.current = some t)
      (hidle : s.idle ≠ some t) (hq : q' = ⟨q.ready, q.blocked, sleep⟩)
      (hsleep : ∀ u, u ∈ sleep ↔ u = t ∨ u ∈ q.sleep)
      (hstate : s'.state = update s.state t .sleeping)
      (hcurrent' : s'.current = s.current) (hidle' : s'.idle = s.idle)
      (hkind : s'.waitKind = s.waitKind) (hkey : s'.waitKey = s.waitKey) :
      Effect s q s' q' (.event (.sleepUntil deadlineNs))
  | terminate (t : Tid) (hcurrent : s.current = some t) (hidle : s.idle ≠ some t) (hq : q' = q)
      (hstate : s'.state = update s.state t .zombie)
      (hcurrent' : s'.current = s.current) (hidle' : s'.idle = s.idle)
      (hkind : s'.waitKind = s.waitKind) (hkey : s'.waitKey = s.waitKey) :
      Effect s q s' q' (.event .terminateCurrent)
  | resume (t : Tid) (hcurrent : s.current = some t) (hmem : t ∈ q.ready)
      (hq : q' = ⟨q.ready.erase t, q.blocked, q.sleep⟩)
      (hstate : s'.state = update s.state t .running)
      (hcurrent' : s'.current = s.current) (hidle' : s'.idle = s.idle)
      (hkind : s'.waitKind = s.waitKind) (hkey : s'.waitKey = s.waitKey) :
      Effect s q s' q' (.event .commitBlock)
  | remove (t : Tid) (hq : q' = ⟨q.ready.erase t, q.blocked.erase t, q.sleep.erase t⟩)
      (hstill : Still s s') : Effect s q s' q' (.remove t)
  | switch (event : SchedEvent) (hevent : event = .reschedule ∨ event = .finish)
      (hdepth : s.preemptDisableDepth = 0) (next : Tid) (rest : List Tid)
      (hq : q' = ⟨rest, q.blocked, q.sleep⟩) (hcurrent : s'.current = some next)
      (hrun : s'.state next = .running)
      (hnext : q.ready ++ s.requeued = next :: rest ∨
        q.ready ++ s.requeued = [] ∧ rest = [] ∧ s.idle = some next)
      (hswitched : Switched s s') : Effect s q s' q' (.event event)

/-- The thread that runs is in the middle of something after the step, or is so no more because it
is in no list. -/
lemma Tidy.of_still (h : r.Tidy q) {r' : SchedRun} (hsched : r'.sched.Tidy q)
    (hstill : Still r.sched r'.sched)
    (hcall : ∀ t, r.sched.current = some t → r.sched.state t ≠ .running → r.inCall t = true →
      r'.inCall t = true)
    (hprepared : ∀ t, r.sched.current = some t → r.prepared t = true →
      r.sched.state t = .blocked ∨ r.sched.state t = .ready →
      r'.prepared t = true ∨ r'.inCall t = true ∨ ¬q.Has t ∧ r.sched.state t = .ready) :
    r'.Tidy q := by
  refine ⟨hsched, fun t ht hne => ?_⟩
  have ht' : r.sched.current = some t := hstill.current ▸ ht
  unfold Settled
  rw [hstill.state]
  rcases h.current t ht' (hstill.idle ▸ hne) with hrun | hcalled | ⟨hprep, hwaits⟩ | hout
  · exact .inl hrun
  · by_cases hrun : r.sched.state t = .running
    · exact .inl hrun
    · exact .inr (.inl (hcall t ht' hrun hcalled))
  · rcases hprepared t ht' hprep hwaits with hprep' | hcall' | ⟨hout, hready⟩
    · exact .inr (.inr (.inl ⟨hprep', hwaits⟩))
    · exact .inr (.inl hcall')
    · exact .inr (.inr (.inr ⟨hout, .inl hready⟩))
  · exact .inr (.inr (.inr hout))

/-- A section that does nothing. -/
lemma Tidy.stay (h : r.Tidy q) {r' : SchedRun} {op : SchedOp} (heq : r'.sched = r.sched)
    (hop : op ≠ .event .reschedule ∧ op ≠ .event .finish)
    (hcall : ∀ t, r.sched.current = some t → r.inCall t = true → r'.inCall t = true)
    (hprepared : ∀ t, r.sched.current = some t → r.prepared t = true →
      r.sched.state t = .blocked ∨ r.sched.state t = .ready →
      r'.prepared t = true ∨ r'.inCall t = true ∨ ¬q.Has t ∧ r.sched.state t = .ready) :
    ∃ q', r'.Tidy q' ∧ Effect r.sched q r'.sched q' op := by
  have hstill : Still r.sched r'.sched := by
    rw [heq]
    exact ⟨rfl, rfl, rfl, rfl, rfl⟩
  exact ⟨q, h.of_still (heq ▸ h.sched) hstill (fun t ht _ => hcall t ht) hprepared,
    .still _ hstill rfl fun hor => absurd hor (not_or_intro hop.1 hop.2)⟩

/-- The mark of the running thread. -/
lemma mark_current (ht : r.sched.current = some t) (marks : Tid → Bool) (value : Bool) :
    r.mark marks value t = value := by
  rw [mark, ht]
  exact update_self ..

section

variable (h : r.Tidy q)
include h

/-- A switch leaves the run in order, whatever its threads have yet to do. -/
lemma Tidy.reschedule (hdepth : r.sched.preemptDisableDepth = 0)
    (inCall : Tid → Bool) {event : SchedEvent} (hevent : event = .reschedule ∨ event = .finish) :
    ∃ q', ({ r with sched := r.sched.nsSchedReschedule, inCall := inCall } : SchedRun).Tidy q' ∧
      Effect r.sched q r.sched.nsSchedReschedule q' (.event event) := by
  obtain ⟨next, rest, htidy, hcurrent, hrun, hnext, hswitched⟩ :=
    nsSchedReschedule_tidy h.sched hdepth
  refine ⟨_, ⟨htidy, fun t ht _ => .inl ?_⟩,
    .switch event hevent hdepth next rest rfl hcurrent hrun hnext hswitched⟩
  have heq : next = t := Option.some.inj (hcurrent.symm.trans ht)
  rw [← heq]
  exact hrun

/-- With preemption disabled there is no switch. -/
lemma still_reschedule (hdepth : r.sched.preemptDisableDepth ≠ 0) :
    r.sched.nsSchedReschedule.Tidy q ∧ Still r.sched r.sched.nsSchedReschedule := by
  rw [nsSchedReschedule, if_pos hdepth]
  exact ⟨h.sched.congr rfl rfl rfl rfl rfl rfl rfl rfl rfl rfl, rfl, rfl, rfl, rfl, rfl⟩

/-- `ns_sched_prepare_block` keeps the lists in order. -/
lemma Tidy.prepareBlock (hfree : r.Free) (kind : WaitKind) (key : ℕ) :
    ∃ q', (r.step (.prepareBlock kind key)).Tidy q' ∧
      Effect r.sched q (r.step (.prepareBlock kind key)).sched q'
        (.event (.prepareBlock kind key)) := by
  have hprepared : ∀ t, r.sched.current = some t →
      (r.step (.prepareBlock kind key)).prepared t = true := fun t ht => mark_current ht _ _
  rcases nsSchedPrepareBlock_cases h.sched kind key (h.out_of_free hfree) with
    ⟨heq, -⟩ | ⟨t, hmoved, -, hwaiting⟩
  · exact h.stay heq ⟨by simp, by simp⟩ (fun _ _ => id) fun t ht _ _ => .inl (hprepared t ht)
  · refine ⟨_, ⟨hmoved.tidy, fun u hu _ => .inr (.inr (.inl ?_))⟩, .block kind key t hmoved.current
      hmoved.notIdle rfl hmoved.state hmoved.rest.current hmoved.rest.idle hwaiting⟩
    have hu' : r.sched.current = some u := hmoved.rest.current.symm.trans hu
    exact ⟨hprepared u hu', .inl (hmoved.state_current hu')⟩

/-- `ns_sched_commit_block` keeps the lists in order. -/
lemma Tidy.commitBlock (hallows : r.Allows .commitBlock)
    (hdepth : r.sched.preemptDisableDepth = 0) :
    ∃ q', (r.step .commitBlock).Tidy q' ∧
      Effect r.sched q (r.step .commitBlock).sched q' (.event .commitBlock) := by
  have hcall : ∀ t, r.sched.current = some t → r.inCall t ≠ true := by
    intro t ht hcalled
    rw [hallows t ht] at hcalled
    cases hcalled
  rcases commitSection_cases h.sched with
    ⟨heq, hnot⟩ | ⟨t, hcurrent, -, heq⟩ |
      ⟨t, hmoved, hmem, -, hkind, hkey⟩
  · refine h.stay (congrArg Prod.snd heq) ⟨by simp, by simp⟩
      (fun t ht hcalled => absurd hcalled (hcall t ht)) fun t ht _ hwaits => .inr (.inr ?_)
    -- the thread was woken and then removed from the ready list
    have hready := hwaits.resolve_left (hnot t ht).1
    refine ⟨?_, hready⟩
    rintro (hr | hb | hs)
    · exact (hnot t ht).2 hr
    · exact (hnot t ht).1 (h.sched.waits t hb).2
    · exact h.sched.notMem_sleep (by simp [hready]) hs
  · have hstill : Still r.sched r.sched.commitSection.2 := by
      rw [heq]
      exact ⟨rfl, rfl, rfl, rfl, rfl⟩
    have htidy : r.sched.commitSection.2.Tidy q := by
      rw [heq]
      exact h.sched.congr rfl rfl rfl rfl rfl rfl rfl rfl rfl rfl
    have hcalled : ∀ t, r.sched.current = some t → (r.step .commitBlock).inCall t = true := by
      intro t ht
      refine (mark_current ht _ _).trans ?_
      rw [heq]
      exact decide_eq_true hdepth
    exact ⟨q, h.of_still htidy hstill (fun t ht _ _ => hcalled t ht)
      fun t ht _ _ => .inr (.inl (hcalled t ht)), .still _ hstill rfl nofun⟩
  · refine ⟨_, ⟨hmoved.tidy, fun u hu _ => .inl ?_⟩, .resume t hmoved.current hmem rfl hmoved.state
      hmoved.rest.current hmoved.rest.idle hkind hkey⟩
    exact hmoved.state_current (hmoved.rest.current.symm.trans hu)

/-- `ns_sched_sleep_until` keeps the lists in order. -/
lemma Tidy.sleepUntil (hfree : r.Free) (hdepth : r.sched.preemptDisableDepth = 0) (deadlineNs : ℕ) :
    ∃ q', (r.step (.sleepUntil deadlineNs)).Tidy q' ∧
      Effect r.sched q (r.step (.sleepUntil deadlineNs)).sched q'
        (.event (.sleepUntil deadlineNs)) := by
  rcases sleepSection_cases h.sched deadlineNs (h.out_of_free hfree) with
    ⟨heq, -⟩ | ⟨t, sleep, hmoved, hfirst, hsleep, hkind, hkey⟩
  · refine h.stay (congrArg Prod.snd heq) ⟨by simp, by simp⟩ (fun t ht hcalled => ?_)
      fun t _ hprep _ => .inl hprep
    rw [(hfree t ht).2] at hcalled
    cases hcalled
  · refine ⟨_, ⟨hmoved.tidy, fun u hu _ => .inr (.inl ?_)⟩,
      .sleep deadlineNs t sleep hmoved.current hmoved.notIdle rfl hsleep hmoved.state
        hmoved.rest.current hmoved.rest.idle hkind hkey⟩
    have hu' : r.sched.current = some u := hmoved.rest.current.symm.trans hu
    refine (mark_current hu' _ _).trans ?_
    rw [hfirst]
    exact decide_eq_true hdepth

/-- `ns_sched_terminate_current` keeps the lists in order. -/
lemma Tidy.terminateCurrent (hfree : r.Free) : ∃ q', (r.step .terminateCurrent).Tidy q' ∧
      Effect r.sched q (r.step .terminateCurrent).sched q' (.event .terminateCurrent) := by
  rcases terminateSection_cases h.sched (h.out_of_free hfree) with
    heq | ⟨t, hmoved, hkind, hkey⟩
  · refine h.stay heq ⟨by simp, by simp⟩ (fun t ht hcalled => ?_) fun t _ hprep _ => .inl hprep
    rw [(hfree t ht).2] at hcalled
    cases hcalled
  · have hback : ∀ u, (r.step .terminateCurrent).sched.current = some u →
        r.sched.current = some u := fun u hu => hmoved.rest.current.symm.trans hu
    refine ⟨_, ⟨hmoved.tidy, fun u hu hne => .inr (.inr (.inr ⟨?_, .inr ?_⟩))⟩,
      .terminate t hmoved.current hmoved.notIdle rfl hmoved.state hmoved.rest.current
        hmoved.rest.idle hkind hkey⟩
    · obtain ⟨hready, hblocked, hsleep⟩ :=
        h.out_of_free hfree u (hback u hu) (hmoved.rest.idle ▸ hne)
      exact not_or_intro hready (not_or_intro hblocked hsleep)
    · exact hmoved.state_current (hback u hu)

end

/-- `ns_sched_remove` leaves the states and the running thread alone. -/
lemma still_nsSchedRemove (s : Scheduler) (thread : Tid) : Still s (s.nsSchedRemove thread) := by
  rw [nsSchedRemove_eq]
  exact ⟨rfl, rfl, rfl, rfl, rfl⟩

/-- `ns_sched_remove` keeps the lists in order, without the thread. -/
lemma Tidy.remove (h : r.Tidy q) (thread : Tid) :
    (r.stepOp (.remove thread)).Tidy
      ⟨q.ready.erase thread, q.blocked.erase thread, q.sleep.erase thread⟩ := by
  have hstill := still_nsSchedRemove r.sched thread
  refine ⟨nsSchedRemove_tidy h.sched thread, fun t ht hne => ?_⟩
  have ht' : r.sched.current = some t := hstill.current ▸ ht
  have hne' : r.sched.idle ≠ some t := hstill.idle ▸ hne
  unfold Settled
  rw [show (r.stepOp (.remove thread)).sched.state = r.sched.state from hstill.state]
  refine (h.current t ht' hne').imp_right (.imp_right (.imp_right fun hout => ⟨?_, hout.2⟩))
  rintro (hr | hb | hs)
  · exact hout.1 (.inl (mem_of_mem_erase hr))
  · exact hout.1 (.inr (.inl (mem_of_mem_erase hb)))
  · exact hout.1 (.inr (.inr (mem_of_mem_erase hs)))

/-- Every step that its thread may take keeps a run in order and does one of the things that steps
do. -/
lemma Tidy.step (h : r.Tidy q) {op : SchedOp} (hallows : r.AllowsOp op) :
    ∃ q', (r.stepOp op).Tidy q' ∧ Effect r.sched q (r.stepOp op).sched q' op := by
  cases op with
  | remove thread =>
    exact ⟨_, h.remove thread, .remove thread rfl (still_nsSchedRemove r.sched thread)⟩
  | preemptDisable | preemptEnable =>
    exact ⟨q, h.of_still (h.sched.congr rfl rfl rfl rfl rfl rfl rfl rfl rfl rfl)
      ⟨rfl, rfl, rfl, rfl, rfl⟩ (fun _ _ _ => id) fun _ _ hprep _ => .inl hprep,
      .still _ ⟨rfl, rfl, rfl, rfl, rfl⟩ rfl nofun⟩
  | event event =>
    cases event with
    | add thread =>
      obtain ⟨q', woken, hwakes, hzombie⟩ := nsSchedAdd_wakes h.sched thread
      refine ⟨q', h.of_wakes hwakes fun t ht hw hcurrent hstate => ?_, .add thread woken hwakes⟩
      obtain rfl := Option.some.inj ht
      exact hallows hcurrent (hstate.resolve_right (hzombie hw))
    | tick nowNs =>
      obtain ⟨q', woken, hwakes⟩ := tickSection_wakes h.sched nowNs
      refine ⟨q', h.of_wakes hwakes fun t ht => ?_, .tick nowNs woken hwakes⟩
      cases ht
    | wake kind key maximum =>
      obtain ⟨q', hwakes⟩ := nsSchedWake_wakes h.sched kind key maximum
      refine ⟨q', h.of_wakes hwakes fun t ht => ?_, .wake kind key maximum hwakes⟩
      cases ht
    | wakeThread thread =>
      obtain ⟨q', woken, hwakes, hwaits, hother⟩ := nsSchedWakeThread_wakes h.sched thread
      refine ⟨q', h.of_wakes hwakes fun t ht hw _ hstate => ?_,
        .wakeThread thread woken hwakes hwaits hother⟩
      obtain rfl := Option.some.inj ht
      have hnone : woken = [] := by
        apply hother <;> rcases hstate with hstate | hstate <;> rw [hstate] <;>
          nofun
      rw [hnone] at hw
      exact absurd hw not_mem_nil
    | yield =>
      exact ⟨q, h.of_still (h.sched.congr rfl rfl rfl rfl rfl rfl rfl rfl rfl rfl)
        ⟨rfl, rfl, rfl, rfl, rfl⟩ (fun t ht _ _ => mark_current ht _ _)
        fun _ _ hprep _ => .inl hprep, .still _ ⟨rfl, rfl, rfl, rfl, rfl⟩ rfl nofun⟩
    | prepareBlock kind key => exact h.prepareBlock hallows kind key
    | commitBlock => exact h.commitBlock hallows.1 hallows.2
    | sleepUntil deadlineNs => exact h.sleepUntil hallows.1 hallows.2 deadlineNs
    | terminateCurrent => exact h.terminateCurrent hallows
    | reschedule =>
      by_cases hdepth : r.sched.preemptDisableDepth = 0
      · exact h.reschedule hdepth r.inCall (.inl rfl)
      · obtain ⟨htidy, hstill⟩ := still_reschedule h hdepth
        exact ⟨q, h.of_still htidy hstill (fun _ _ _ => id) fun _ _ hprep _ => .inl hprep,
          .still _ hstill rfl fun _ => hdepth⟩
    | finish =>
      by_cases hdepth : r.sched.preemptDisableDepth = 0
      · exact h.reschedule hdepth (r.mark r.inCall false) (.inr rfl)
      · obtain ⟨htidy, hstill⟩ := still_reschedule h hdepth
        have hrun : ∀ t, r.sched.current = some t → r.sched.state t = .running :=
          hallows.resolve_left hdepth
        exact ⟨q, h.of_still htidy hstill (fun t ht hnot => absurd (hrun t ht) hnot)
          fun _ _ hprep _ => .inl hprep, .still _ hstill rfl fun _ => hdepth⟩

/-- No step sets another idle thread. -/
lemma Effect.idle_eq {s s' : Scheduler} {q' : Queues} {op : SchedOp} (h : Effect s q s' q' op) :
    s'.idle = s.idle := by
  cases h with
  | still _ hstill => exact hstill.idle
  | add _ _ hwakes => exact hwakes.idle
  | tick _ _ hwakes => exact hwakes.idle
  | wake _ _ _ hwakes => exact hwakes.idle
  | wakeThread _ _ hwakes => exact hwakes.idle
  | block _ _ _ _ _ _ _ _ hidle' => exact hidle'
  | sleep _ _ _ _ _ _ _ _ _ hidle' => exact hidle'
  | terminate _ _ _ _ _ _ hidle' => exact hidle'
  | resume _ _ _ _ _ _ hidle' => exact hidle'
  | remove _ _ hstill => exact hstill.idle
  | switch _ _ _ _ _ _ _ _ _ hswitched => exact hswitched.idle

/-- Every run is in order to its end. -/
lemma Tidy.run (h : r.Tidy q) {ops : List SchedOp} (hops : AllSteps stepOp AllowsOp r ops) :
    (∃ q', (ops.foldl stepOp r).Tidy q') ∧ (ops.foldl stepOp r).sched.idle = r.sched.idle := by
  refine hops.last (fun r' => (∃ q', r'.Tidy q') ∧ r'.sched.idle = r.sched.idle)
    (fun r' op hr' hop => ?_) ⟨⟨q, h⟩, rfl⟩
  obtain ⟨⟨q', htidy⟩, hidle⟩ := hr'
  obtain ⟨q'', htidy', heffect⟩ := htidy.step hop
  exact ⟨⟨q'', htidy'⟩, heffect.idle_eq.trans hidle⟩

section

variable (idle : Tid) (quantumTicks : ℕ) (published flagged : Tid → Bool)

/-- A run starts in order. -/
lemma sched_tidy_start : (start idle quantumTicks published flagged).sched.Tidy ⟨[], [], []⟩ where
  runs := rfl
  blocked := rfl
  sleep := rfl
  sorted := List.Pairwise.nil
  onQueue t := by simp [start]
  ready t ht := absurd ht not_mem_nil
  waits t ht := absurd ht not_mem_nil
  sleeps t ht := absurd ht not_mem_nil
  running t ht := absurd ht (Finset.notMem_empty t)
  unadded t _ := by
    show (if t = idle ∨ published t = true then ThreadState.ready else .embryo) ≠ _ ∧
      (if t = idle ∨ published t = true then ThreadState.ready else .embryo) ≠ _
    split_ifs <;> exact ⟨nofun, nofun⟩
  idle := ⟨idle, rfl, by simp [start], Finset.notMem_empty idle⟩
  current t ht := by cases ht

/-- At the start the lists are in order. -/
lemma tidy_start : ∃ q, (start idle quantumTicks published flagged).Tidy q :=
  ⟨_, sched_tidy_start idle quantumTicks published flagged, nofun⟩

end

end SchedRun

end Northstar
