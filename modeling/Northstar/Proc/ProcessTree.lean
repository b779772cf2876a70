import Northstar.Lib.Lineage
import Northstar.Lib.Trace
import Northstar.Proc.Process

/-! # The tree of processes

Every unreaped process that has a parent stands exactly once in the list of children of that parent.
The calls keep this but for two: the init process exits while it has children, or it is reaped while
it has children. The children of an exiting init process keep it as their parent although its list
has been emptied; a reaped one leaves them with a parent that is gone.

The proof carries the lists of children as a function beside the state. While an exiting process
gives its children away, those not yet given away float. -/

namespace Northstar

open Function List Finset

namespace ProcManager

variable {m : ProcManager} {floating : List ℕ} {kids : ℕ → List ℕ} {process thread child : ℕ}

/-- The links between processes. -/
def lineage (m : ProcManager) : Lineage ℕ :=
  { parent := m.parent, children := m.children, siblingNext := m.siblingNext }

/-- What holds of the processes between calls, and with floating ones in the course of an exit. -/
structure Ok (m : ProcManager) (floating : List ℕ) (kids : ℕ → List ℕ) : Prop where
  holds : m.lineage.Holds m.unreaped floating kids
  count : ∀ p ∈ m.unreaped, m.childCount p = (kids p).length
  parentPid : ∀ c ∈ m.unreaped, ∀ p, m.parent c = some p → m.parentPid c = m.pid p
  pid_inj : ∀ c ∈ m.unreaped, ∀ d ∈ m.unreaped, m.pid c = m.pid d → m.pid c ≠ 0 → c = d
  pid_ne_zero : ∀ c ∈ m.unreaped, m.parent c ≠ none → m.pid c ≠ 0
  zombie : ∀ p ∈ m.unreaped, m.processState p = .zombie → m.initProcess ≠ some p → kids p = []
  listed : ∃ l, m.allProcesses.Lists l ∧ l.toFinset = m.unreaped
  not_reaped : ∀ p ∈ m.unreaped, m.processState p ≠ .reaped
  init_mem : ∀ p, m.initProcess = some p → p ∈ m.unreaped

/-- The manager is in order at the start. -/
lemma init_ok : init.Ok [] fun _ => [] where
  holds := ⟨fun p hp => absurd hp (notMem_empty p),
    fun p hp => absurd hp (notMem_empty p), fun c hc => absurd hc (notMem_empty c)⟩
  count p hp := absurd hp (notMem_empty p)
  parentPid c hc := absurd hc (notMem_empty c)
  pid_inj c hc := absurd hc (notMem_empty c)
  pid_ne_zero c hc := absurd hc (notMem_empty c)
  zombie p hp := absurd hp (notMem_empty p)
  listed := ⟨[], rfl, rfl⟩
  not_reaped p hp := absurd hp (notMem_empty p)
  init_mem p h := absurd h.symm (Option.some_ne_none p)

/-- The tree does not depend on the threads and on the counters of the identifiers. -/
lemma Ok.of_threads (h : m.Ok floating kids) {threadState : ℕ → ThreadState}
    {liveThreads : ℕ → ℕ} {kernelFlag : ℕ → Bool} {waitKind : ℕ → WaitKind} {waitKey : ℕ → ℕ}
    {waitPid : ℕ → UInt32} {nextPid nextTid : UInt32} {allThreads : LinkedList ℕ}
    {unreapedThreads : Finset ℕ} :
    { m with
      threadState := threadState, liveThreads := liveThreads, kernelFlag := kernelFlag,
      waitKind := waitKind, waitKey := waitKey, waitPid := waitPid, nextPid := nextPid,
      nextTid := nextTid, allThreads := allThreads,
      unreapedThreads := unreapedThreads }.Ok floating kids :=
  ⟨h.holds, h.count, h.parentPid, h.pid_inj, h.pid_ne_zero, h.zombie, h.listed, h.not_reaped,
    h.init_mem⟩

variable {l : List ℕ} {pid : UInt32} {rounds p : ℕ} {link : Option ℕ}

/-- The list of all processes is as long as there are unreaped ones. -/
lemma listed_length (hl : m.allProcesses.Lists l) (hset : l.toFinset = m.unreaped) :
    l.length = m.unreaped.card := by
  rw [← hset, toFinset_card_of_nodup hl.nodup]

/-! ### Identifiers -/

/-- A search that finds nothing has passed only reaped processes with the identifier. -/
lemma findLoop_eq_none (hl : Follows m.allProcesses.next link l) (hrounds : l.length ≤ rounds)
    (hnone : m.findLoop pid rounds link = none) :
    ∀ p ∈ l, m.pid p = pid → m.processState p = .reaped := by
  induction l generalizing link rounds with
  | nil => exact nofun
  | cons x xs ih =>
    obtain ⟨rfl, hxs⟩ := hl
    obtain ⟨rounds, rfl⟩ : ∃ n, rounds = n + 1 :=
      Nat.exists_eq_add_one_of_ne_zero (Nat.ne_of_gt (Nat.lt_of_lt_of_le (Nat.succ_pos _) hrounds))
    rw [findLoop] at hnone
    by_cases hfound : m.pid x = pid ∧ m.processState x ≠ .reaped
    · rw [if_pos hfound] at hnone
      exact absurd hnone (Option.some_ne_none x)
    · rw [if_neg hfound] at hnone
      intro p hp hpid
      rcases mem_cons.1 hp with rfl | hp
      · exact not_not.1 fun hne => hfound ⟨hpid, hne⟩
      · exact ih hxs (Nat.le_of_succ_le_succ hrounds) hnone p hp hpid

/-- An identifier that is not found belongs to no unreaped process. -/
lemma Ok.pid_ne_of_find (h : m.Ok floating kids) (hpid : pid ≠ 0)
    (hnone : m.nsProcFind pid = none) : ∀ p ∈ m.unreaped, m.pid p ≠ pid := by
  obtain ⟨l, hl, hset⟩ := h.listed
  rw [nsProcFind, if_neg hpid] at hnone
  intro p hp heq
  have hmem : p ∈ l := mem_toFinset.1 (hset ▸ hp)
  exact h.not_reaped p hp
    (findLoop_eq_none hl (listed_length hl hset).le hnone p hmem heq)

/-- The identifier that is allocated is not taken. -/
lemma allocateLoop_free (taken : UInt32 → Bool) (attempts : ℕ) (next : UInt32)
    (h : (allocateLoop taken attempts next).1 ≠ 0) :
    taken (allocateLoop taken attempts next).1 = false := by
  induction attempts generalizing next with
  | zero => exact absurd rfl h
  | succ attempts ih =>
    rw [allocateLoop] at h ⊢
    by_cases hreserved : next = 0 ∨ next = 0xffffffff
    · rw [if_pos hreserved] at h ⊢
      exact ih _ h
    · rw [if_neg hreserved] at h ⊢
      by_cases htaken : taken next = false
      · rw [if_pos htaken]
        exact htaken
      · rw [if_neg htaken] at h ⊢
        exact ih _ h

/-- A new identifier is that of no other process. -/
lemma Ok.allocatePid_fresh (h : m.Ok floating kids) (hpid : m.allocatePid.1 ≠ 0) :
    ∀ p ∈ m.unreaped, m.pid p ≠ m.allocatePid.1 := by
  refine h.pid_ne_of_find hpid ?_
  have hfree := allocateLoop_free (fun pid => (m.nsProcFind pid).isSome) allocateAttempts m.nextPid
    hpid
  exact Option.isSome_eq_false_iff.1 hfree |> Option.isNone_iff_eq_none.1

/-- There are fewer processes with a parent than identifiers. -/
lemma Ok.length_lt (h : m.Ok floating kids) (hnodup : l.Nodup)
    (hmem : ∀ c ∈ l, c ∈ m.unreaped ∧ m.pid c ≠ 0) : l.length < 2 ^ 32 := by
  have hmaps : ∀ c ∈ l.toFinset, (m.pid c).toNat ∈ Finset.Ico 1 (2 ^ 32) := by
    intro c hc
    have hne := (hmem c (mem_toFinset.1 hc)).2
    have hpos : (m.pid c).toNat ≠ 0 := fun hzero => hne (UInt32.toNat_inj.1 hzero)
    exact mem_Ico.2 ⟨Nat.one_le_iff_ne_zero.2 hpos, (m.pid c).toNat_lt⟩
  have hinj : Set.InjOn (fun c => (m.pid c).toNat) l.toFinset := by
    intro c hc d hd heq
    obtain ⟨hcm, hcne⟩ := hmem c (mem_toFinset.1 hc)
    exact h.pid_inj c hcm d (hmem d (mem_toFinset.1 hd)).1 (UInt32.toNat_inj.1 heq) hcne
  have hcard := card_le_card_of_injOn _ hmaps hinj
  rw [toFinset_card_of_nodup hnodup, Nat.card_Ico] at hcard
  omega

/-! ### New children -/

/-- A child of an unreaped process is unreaped and has it as its parent. -/
lemma Ok.mem_kids (h : m.Ok floating kids) {c : ℕ} (hp : p ∈ m.unreaped) (hc : c ∈ kids p) :
    c ∈ m.unreaped ∧ m.parent c = some p ∧ m.pid c ≠ 0 := by
  obtain ⟨hcm, hparent, -⟩ := (h.holds.mem_kids_iff p hp c).1 hc
  exact ⟨hcm, hparent,
    h.pid_ne_zero c hcm fun hnone => Option.some_ne_none p (hparent.symm.trans hnone)⟩

/-- A floating process finds a parent. -/
lemma Ok.adopt (h : m.Ok (child :: floating) kids) (hp : p ∈ m.unreaped)
    (hchild : child ∈ m.unreaped) (hfloating : child ∉ floating) (hpid : m.pid child ≠ 0)
    (hzombie : m.processState p = .zombie → m.initProcess = some p) :
    (m.adopt p child).Ok floating (update kids p (child :: kids p)) := by
  have hnot := h.holds.not_mem_kids_of_floating mem_cons_self p hp
  have hkid : ∀ c ∈ kids p, c ∈ m.unreaped ∧ m.pid c ≠ 0 := fun c hc =>
    ⟨(h.mem_kids hp hc).1, (h.mem_kids hp hc).2.2⟩
  have hlength : (child :: kids p).length < 2 ^ 32 :=
    h.length_lt (nodup_cons.2 ⟨hnot, (h.holds.follows p hp).nodup⟩)
      (forall_mem_cons.2 ⟨⟨hchild, hpid⟩, hkid⟩)
  refine
    { h with
      holds := h.holds.attach hp hchild hfloating
      count := fun q hq => ?_
      parentPid := fun c hc q hparent => ?_
      pid_ne_zero := fun c hc hparent => ?_
      zombie := fun q hq hstate hinit => ?_ }
  · change update m.childCount p ((m.childCount p + 1) % 2 ^ 32) q = _
    by_cases hqp : q = p
    · subst hqp
      rw [update_self, update_self, h.count q hq, ← length_cons (a := child),
        Nat.mod_eq_of_lt hlength]
    · rw [update_of_ne hqp, update_of_ne hqp, h.count q hq]
  · change update m.parent child (some p) c = some q at hparent
    change update m.parentPid child (m.pid p) c = m.pid q
    by_cases hcc : c = child
    · subst hcc
      rw [update_self] at hparent ⊢
      rw [Option.some.inj hparent]
    · rw [update_of_ne hcc] at hparent ⊢
      exact h.parentPid c hc q hparent
  · change update m.parent child (some p) c ≠ none at hparent
    by_cases hcc : c = child
    · exact hcc ▸ hpid
    · rw [update_of_ne hcc] at hparent
      exact h.pid_ne_zero c hc hparent
  · have hqp : q ≠ p := by
      rintro rfl
      exact hinit (hzombie hstate)
    rw [update_of_ne hqp]
    exact h.zombie q hq hstate hinit

/-- The fields of a process that has not been published do not matter. -/
lemma Ok.initializeProcess (h : m.Ok [] kids) (thread : ℕ) (hnew : process ∉ m.unreaped)
    (pid tid : UInt32) :
    (m.initializeProcess process thread pid tid).Ok [] kids := by
  have hne : ∀ q ∈ m.unreaped, q ≠ process := fun q hq => ne_of_mem_of_not_mem hq hnew
  refine
    { h with
      holds := h.holds.clear hnew
      count := fun q hq => ?_
      parentPid := fun c hc q hparent => ?_
      pid_inj := fun c hc d hd hpid hzero => ?_
      pid_ne_zero := fun c hc hparent => ?_
      zombie := fun q hq hstate hinit => ?_
      not_reaped := fun q hq => ?_ }
  · exact (update_of_ne (hne q hq) _ _).trans (h.count q hq)
  · have hparent' := (update_of_ne (hne c hc) _ _).symm.trans hparent
    have hq := h.holds.parent_mem c hc q hparent'
    exact (update_of_ne (hne c hc) _ _).trans
      ((h.parentPid c hc q hparent').trans (update_of_ne (hne q hq) _ _).symm)
  · have hc' := update_of_ne (hne c hc) pid m.pid
    have hd' := update_of_ne (hne d hd) pid m.pid
    exact h.pid_inj c hc d hd (hc'.symm.trans (Eq.trans hpid hd')) (hc' ▸ hzero)
  · rw [show (m.initializeProcess process thread pid tid).pid c = m.pid c from
      update_of_ne (hne c hc) _ _]
    exact h.pid_ne_zero c hc fun hnone =>
      hparent ((update_of_ne (hne c hc) _ _).trans hnone)
  · exact h.zombie q hq ((update_of_ne (hne q hq) _ _).symm.trans hstate) hinit
  · rw [show (m.initializeProcess process thread pid tid).processState q = m.processState q from
      update_of_ne (hne q hq) _ _]
    exact h.not_reaped q hq

/-- A process that is set up and not published. -/
structure Single (m : ProcManager) (process : ℕ) : Prop where
  root : m.parent process = none
  children : m.children process = none
  count : m.childCount process = 0
  fresh : m.pid process ≠ 0 → ∀ p ∈ m.unreaped, m.pid p ≠ m.pid process

section

variable (h : m.Ok [] kids) (thread : ℕ) (hnew : process ∉ m.unreaped)
include h hnew

/-- A process without a parent is published. -/
lemma Ok.publishProcess_root (hsingle : m.Single process) :
    (m.publishProcess process thread none).Ok [] (update kids process []) := by
  have hne : ∀ q ∈ insert process m.unreaped, q ≠ process → q ∈ m.unreaped :=
    fun q hq hqp => mem_of_mem_insert_of_ne hq hqp
  obtain ⟨l, hl, hset⟩ := h.listed
  refine
    { holds := h.holds.insert hnew hsingle.root hsingle.children
      count := fun q hq => ?_
      parentPid := fun c hc q hparent => ?_
      pid_inj := fun c hc d hd heq hzero => ?_
      pid_ne_zero := fun c hc hparent => ?_
      zombie := fun q hq hstate hinit => ?_
      listed := ⟨process :: l, ?_, ?_⟩
      not_reaped := fun q hq hstate => ?_
      init_mem := fun p hinit => ?_ }
  · by_cases hqp : q = process
    · subst hqp
      rw [update_self]
      exact hsingle.count
    · rw [update_of_ne hqp]
      exact h.count q (hne q hq hqp)
  · have hcp : c ≠ process := by
      rintro rfl
      exact Option.some_ne_none q (hparent.symm.trans hsingle.root)
    exact h.parentPid c (hne c hc hcp) q hparent
  · by_cases hcp : c = process
    · by_cases hdp : d = process
      · rw [hcp, hdp]
      · subst hcp
        exact absurd heq.symm (hsingle.fresh hzero d (hne d hd hdp))
    · by_cases hdp : d = process
      · subst hdp
        have hzero' : m.pid d ≠ 0 := fun hz => hzero (Eq.trans heq hz)
        exact absurd heq (hsingle.fresh hzero' c (hne c hc hcp))
      · exact h.pid_inj c (hne c hc hcp) d (hne d hd hdp) heq hzero
  · have hcp : c ≠ process := by
      rintro rfl
      exact hparent hsingle.root
    exact h.pid_ne_zero c (hne c hc hcp) hparent
  · by_cases hqp : q = process
    · rw [hqp, update_self]
    · rw [update_of_ne hqp]
      refine h.zombie q (hne q hq hqp) ((update_of_ne hqp _ _).symm.trans hstate)
        fun hold => hinit ?_
      have hsome : ¬(m.initProcess = none ∧ m.kernelFlag thread = false) := fun hnone =>
        Option.some_ne_none q (hold.symm.trans hnone.1)
      exact (if_neg hsome).trans hold
  · have hout : process ∉ [] ++ l := fun hmem => hnew (hset ▸ mem_toFinset.2 hmem)
    have hnil : m.allProcesses.Lists ([] ++ l) := hl
    exact hnil.link hout
  · change (process :: l).toFinset = insert process m.unreaped
    rw [toFinset_cons, hset]
  · by_cases hqp : q = process
    · subst hqp
      exact ProcessState.noConfusion ((update_self _ _ _).symm.trans hstate)
    · exact h.not_reaped q (hne q hq hqp) ((update_of_ne hqp _ _).symm.trans hstate)
  · change (if m.initProcess = none ∧ m.kernelFlag thread = false then some process
      else m.initProcess) = some p at hinit
    split_ifs at hinit with hfirst
    · exact Option.some.inj hinit ▸ mem_insert_self _ _
    · exact mem_insert_of_mem (h.init_mem p hinit)

/-- A new process under a live parent. -/
lemma Ok.publishProcess (hsingle : m.Single process) {parent : Option ℕ}
    (hparent : ∀ p ∈ parent, m.Live p ∧ m.pid process ≠ 0) :
    ∃ kids', (m.publishProcess process thread parent).Ok [] kids' := by
  have hpublished := h.publishProcess_root thread hnew hsingle
  cases parent with
  | none => exact ⟨_, hpublished⟩
  | some p =>
    obtain ⟨⟨hp, halive⟩, hzero⟩ := hparent p rfl
    have hpp : p ≠ process := ne_of_mem_of_not_mem hp hnew
    have hfloat : (m.publishProcess process thread none).Ok [process] _ :=
      { hpublished with holds := hpublished.holds.float hsingle.root }
    refine ⟨_, hfloat.adopt (mem_insert_of_mem hp) (mem_insert_self _ _)
      not_mem_nil hzero fun hzombie => ?_⟩
    have hstate : m.processState p = .zombie := (update_of_ne hpp _ _).symm.trans hzombie
    exact ProcessState.noConfusion (halive.symm.trans hstate)

end

/-- The counters of the identifiers move on, and a success sets up the process. -/
lemma allocateProcessThread_cases (m : ProcManager) (process thread : ℕ) (assignPid : Bool) :
    ∃ nextPid nextTid, let counted := { m with nextPid := nextPid, nextTid := nextTid }
      ((m.allocateProcessThread process thread assignPid).1 ≠ 0 ∧
        (m.allocateProcessThread process thread assignPid).2 = counted) ∨
      ∃ pid tid, (assignPid = true → pid = m.allocatePid.1 ∧ pid ≠ 0) ∧
        (assignPid = false → pid = 0) ∧
        m.allocateProcessThread process thread assignPid =
          (0, counted.initializeProcess process thread pid tid) := by
  cases assignPid with
  | false =>
    refine ⟨m.nextPid, m.allocateTid.2.nextTid, ?_⟩
    by_cases htid : m.allocateTid.1 = 0
    · refine .inl ⟨?_, ?_⟩
      · simp [ProcManager.allocateProcessThread, htid]
      · simp [ProcManager.allocateProcessThread, htid]
        rfl
    · refine .inr ⟨0, m.allocateTid.1, nofun, fun _ => rfl, ?_⟩
      simp [ProcManager.allocateProcessThread, htid]
      rfl
  | true =>
    refine ⟨m.allocatePid.2.nextPid, m.allocatePid.2.allocateTid.2.nextTid, ?_⟩
    by_cases hfail : m.allocatePid.1 = 0 ∨ m.allocatePid.2.allocateTid.1 = 0
    · refine .inl ⟨?_, ?_⟩
      · simp [ProcManager.allocateProcessThread, hfail]
      · simp [ProcManager.allocateProcessThread, hfail]
        rfl
    · refine .inr ⟨m.allocatePid.1, m.allocatePid.2.allocateTid.1,
        fun _ => ⟨rfl, fun hzero => hfail (Or.inl hzero)⟩, nofun, ?_⟩
      simp [ProcManager.allocateProcessThread, hfail]
      rfl

/-- Allocating identifiers for a new process keeps the manager in order. -/
lemma Ok.allocateProcessThread (h : m.Ok [] kids) (thread : ℕ) (hnew : process ∉ m.unreaped)
    (assignPid : Bool) : (m.allocateProcessThread process thread assignPid).2.Ok [] kids := by
  obtain ⟨nextPid, nextTid, ⟨-, hfailed⟩ | ⟨pid, tid, -, -, hbuilt⟩⟩ :=
    m.allocateProcessThread_cases process thread assignPid
  · rw [hfailed]
    exact h.of_threads
  · rw [hbuilt]
    have hcounted : { m with nextPid := nextPid, nextTid := nextTid }.Ok [] kids := h.of_threads
    exact hcounted.initializeProcess thread hnew pid tid

section

variable (h : m.Ok [] kids) (hnew : process ∉ m.unreaped)
include h hnew

/-- A process that has been set up is published, with the flags of its thread set in between. -/
lemma Ok.publishAllocated {assignPid : Bool}
    (hsuccess : (m.allocateProcessThread process thread assignPid).1 = 0) {parent : Option ℕ}
    (hparent : ∀ p ∈ parent, m.Live p ∧ assignPid = true) (kernelFlag : ℕ → Bool) :
    ∃ kids', ({ (m.allocateProcessThread process thread assignPid).2 with
      kernelFlag := kernelFlag }.publishProcess process thread parent).Ok [] kids' := by
  obtain ⟨nextPid, nextTid, ⟨hfailed, -⟩ | ⟨pid, tid, hassigned, hkernel, hbuilt⟩⟩ :=
    m.allocateProcessThread_cases process thread assignPid
  · exact absurd hsuccess hfailed
  · rw [hbuilt]
    have hcounted : { m with nextPid := nextPid, nextTid := nextTid }.Ok [] kids := h.of_threads
    have hinitialized := hcounted.initializeProcess thread hnew pid tid
    have hset : { ({ m with nextPid := nextPid, nextTid := nextTid }.initializeProcess
      process thread pid tid) with kernelFlag := kernelFlag }.Ok [] kids :=
      hinitialized.of_threads
    have hown : update m.pid process pid process = pid := update_self ..
    have hne : ∀ p ∈ m.unreaped, p ≠ process := fun p hp => ne_of_mem_of_not_mem hp hnew
    refine hset.publishProcess thread hnew
      ⟨update_self .., update_self .., update_self .., fun hzero p hp => ?_⟩ fun p hp => ?_
    · change update m.pid process pid p ≠ update m.pid process pid process
      change update m.pid process pid process ≠ 0 at hzero
      rw [hown] at hzero ⊢
      rw [update_of_ne (hne p hp)]
      cases assignPid with
      | false => exact absurd (hkernel rfl) hzero
      | true =>
        obtain ⟨rfl, -⟩ := hassigned rfl
        exact h.allocatePid_fresh hzero p hp
    · obtain ⟨⟨hmem, halive⟩, hassign⟩ := hparent p hp
      refine ⟨⟨hmem, (update_of_ne (hne p hmem) _ _).trans halive⟩, ?_⟩
      change update m.pid process pid process ≠ 0
      rw [hown]
      exact (hassigned hassign).2

/-- `ns_proc_create_kernel` keeps the tree. -/
lemma Ok.nsProcCreateKernel (outcome : Outcome) :
    ∃ kids', (m.nsProcCreateKernel process thread outcome).2.Ok [] kids' := by
  have hallocated := h.allocateProcessThread thread hnew false
  cases outcome with
  | noMemory => exact ⟨kids, h⟩
  | failed error => exact ⟨kids, hallocated⟩
  | built =>
    simp only [ProcManager.nsProcCreateKernel]
    by_cases herror : (m.allocateProcessThread process thread false).1 = 0
    · rw [if_neg (not_not.2 herror)]
      exact h.publishAllocated hnew herror (fun p hp => absurd hp.symm (Option.some_ne_none p)) _
    · rw [if_pos herror]
      exact ⟨kids, hallocated⟩

/-- `ns_proc_spawn` keeps the tree. -/
lemma Ok.nsProcSpawn {parent : Option ℕ}
    (hparent : ∀ p ∈ parent, m.Live p) (actionCount : ℕ) (outcome : Outcome) :
    ∃ kids', (m.nsProcSpawn parent process thread actionCount outcome).2.Ok [] kids' := by
  have hallocated := h.allocateProcessThread thread hnew true
  unfold ProcManager.nsProcSpawn
  split_ifs with hactions
  · exact ⟨kids, h⟩
  · cases outcome with
    | noMemory => exact ⟨kids, h⟩
    | failed error => exact ⟨kids, hallocated⟩
    | built =>
      by_cases herror : (m.allocateProcessThread process thread true).1 = 0
      · rw [if_neg (not_not.2 herror)]
        exact h.publishAllocated hnew herror (fun p hp => ⟨hparent p hp, rfl⟩)
          (m.allocateProcessThread process thread true).2.kernelFlag
      · rw [if_pos herror]
        exact ⟨kids, hallocated⟩

end

/-! ### Exit -/

/-- A floating child is made an orphan. -/
lemma Ok.orphan (h : m.Ok (child :: floating) kids) :
    { m with
      parent := update m.parent child none
      parentPid := update m.parentPid child 0
      siblingNext := update m.siblingNext child none }.Ok floating kids := by
  refine
    { h with
      holds := h.holds.orphan
      parentPid := fun c hc q hparent => ?_
      pid_ne_zero := fun c hc hparent => ?_ }
  · have hcc : c ≠ child := by
      rintro rfl
      exact Option.some_ne_none q (hparent.symm.trans (update_self ..))
    exact (update_of_ne hcc _ _).trans
      (h.parentPid c hc q ((update_of_ne hcc _ _).symm.trans hparent))
  · have hcc : c ≠ child := by
      rintro rfl
      exact hparent (update_self ..)
    exact h.pid_ne_zero c hc fun hnone => hparent ((update_of_ne hcc _ _).trans hnone)

/-- One round of the loop: the child no longer floats, the other floating ones stay as they are. -/
lemma Ok.reparentChild (h : m.Ok (child :: floating) kids) (hchild : child ∈ m.unreaped)
    (hfloating : child ∉ floating) (hpid : m.pid child ≠ 0) (hinit : m.initProcess ≠ some process) :
    (∃ kids', (m.reparentChild process child).Ok floating kids') ∧
      (m.reparentChild process child).unreaped = m.unreaped ∧
      (m.reparentChild process child).pid = m.pid ∧
      (m.reparentChild process child).initProcess = m.initProcess ∧
      ∀ z, z ≠ child → (m.reparentChild process child).siblingNext z = m.siblingNext z := by
  unfold ProcManager.reparentChild
  split
  · exact ⟨⟨kids, h.orphan⟩, rfl, rfl, rfl, fun z hz => update_of_ne hz _ _⟩
  · rename_i initProcess hsome
    have hne : initProcess ≠ process := fun heq => hinit (hsome.trans (congrArg some heq))
    rw [if_pos hne]
    exact ⟨⟨_, h.adopt (h.init_mem initProcess hsome) hchild hfloating hpid fun _ => hsome⟩,
      rfl, rfl, rfl, fun z hz => update_of_ne hz _ _⟩

/-- At the end of the list nothing is left to do. -/
lemma reparentLoop_none (process rounds : ℕ) (m : ProcManager) :
    reparentLoop process rounds none m = m := by
  cases rounds with
  | zero => rfl
  | succ rounds => rfl

/-- The loop gives all floating children away. -/
lemma Ok.reparentLoop (h : m.Ok floating kids)
    (hlink : Follows m.siblingNext link floating) (hrounds : floating.length ≤ rounds)
    (hmem : ∀ c ∈ floating, c ∈ m.unreaped ∧ m.pid c ≠ 0) (hinit : m.initProcess ≠ some process) :
    ∃ kids', (reparentLoop process rounds link m).Ok [] kids' := by
  induction floating generalizing m kids link rounds with
  | nil =>
    have hnone : link = none := hlink
    rw [hnone, reparentLoop_none]
    exact ⟨kids, h⟩
  | cons c floating ih =>
    have hnodup := nodup_cons.1 hlink.nodup
    obtain ⟨rfl, hrest⟩ := hlink
    obtain ⟨hc, hfloating⟩ := forall_mem_cons.1 hmem
    obtain ⟨⟨kids', hnext⟩, hunreaped, hpid, hsame, hlinks⟩ :=
      h.reparentChild hc.1 hnodup.1 hc.2 hinit
    cases rounds with
    | zero => exact absurd hrounds (Nat.not_succ_le_zero _)
    | succ rounds =>
      rw [ProcManager.reparentLoop]
      refine ih hnext (hrest.congr fun z hz => hlinks z (ne_of_mem_of_not_mem hz hnodup.1))
        (Nat.le_of_succ_le_succ hrounds) (fun d hd => ?_) (hsame ▸ hinit)
      rw [hunreaped, hpid]
      exact hfloating d hd

/-- The lists of children are no longer than the rounds of the loops over them. -/
lemma Ok.kids_length_le (h : m.Ok [] kids) (hp : p ∈ m.unreaped) :
    (kids p).length ≤ m.unreaped.card := by
  rw [← toFinset_card_of_nodup (h.holds.follows p hp).nodup]
  exact card_le_card fun c hc =>
    ((h.holds.mem_kids_iff p hp c).1 (mem_toFinset.1 hc)).1

/-- A process without children is one whose list is empty. -/
lemma Ok.kids_eq_nil_iff (h : m.Ok [] kids) (hp : p ∈ m.unreaped) :
    kids p = [] ↔ m.children p = none := by
  have hhead : m.children p = (kids p).head? := (h.holds.follows p hp).head_eq
  rw [hhead, head?_eq_none_iff]

/-- A process becomes a zombie and its children float. -/
def abandon (m : ProcManager) (process : ℕ) (status : ℤ) : ProcManager :=
  { m with
    processState := update m.processState process .zombie
    exitStatus := update m.exitStatus process status
    children := update m.children process none
    childCount := update m.childCount process 0 }

section

variable (h : m.Ok [] kids) (hp : process ∈ m.unreaped) (status : ℤ)
include h hp

/-- A process that exits leaves its children floating. -/
lemma Ok.abandon : (m.abandon process status).Ok (kids process) (update kids process []) := by
  refine
    { h with
      holds := h.holds.abandon hp
      count := fun q hq => ?_
      zombie := fun q hq hstate hinit => ?_
      not_reaped := fun q hq hstate => ?_ }
  · change update m.childCount process 0 q = _
    by_cases hqp : q = process
    · rw [hqp, update_self, update_self, length_nil]
    · rw [update_of_ne hqp, update_of_ne hqp, h.count q hq]
  · by_cases hqp : q = process
    · rw [hqp, update_self]
    · rw [update_of_ne hqp]
      exact h.zombie q hq ((update_of_ne hqp _ _).symm.trans hstate) hinit
  · by_cases hqp : q = process
    · subst hqp
      exact ProcessState.noConfusion ((update_self _ _ _).symm.trans hstate)
    · exact h.not_reaped q hq ((update_of_ne hqp _ _).symm.trans hstate)

/-- A process that is not init, or has no children, ends. -/
lemma Ok.endProcess (hkeeps : m.initProcess = some process → m.children process = none) :
    ∃ kids', (m.endProcess process status).Ok [] kids' := by
  have habandoned := h.abandon hp status
  by_cases hinit : m.initProcess = some process
  · have hnone := hkeeps hinit
    rw [(h.kids_eq_nil_iff hp).2 hnone] at habandoned
    simp only [ProcManager.endProcess, hnone, reparentLoop_none]
    exact ⟨_, habandoned⟩
  · exact habandoned.reparentLoop (h.holds.follows process hp) (h.kids_length_le hp)
      (fun c hc => ⟨(h.mem_kids hp hc).1, (h.mem_kids hp hc).2.2⟩) hinit

end

/-- The end of a thread changes the thread states and their counts only. -/
lemma endThread_eq (m : ProcManager) (caller process : ℕ) : ∃ threadState liveThreads,
    m.endThread caller process =
      { m with threadState := threadState, liveThreads := liveThreads } := by
  rw [ProcManager.endThread]
  split_ifs with hzombie
  · exact ⟨m.threadState, m.liveThreads, rfl⟩
  · exact ⟨_, _, rfl⟩

/-- An exiting init process stays the parent of its children. -/
lemma reparentLoop_init (rounds : ℕ) (link : Option ℕ) (m : ProcManager)
    (hinit : m.initProcess = some process) (c : ℕ) (hc : m.parent c = some process) :
    (reparentLoop process rounds link m).children = m.children ∧
      (reparentLoop process rounds link m).unreaped = m.unreaped ∧
      (reparentLoop process rounds link m).parent c = some process := by
  induction rounds generalizing link m with
  | zero => exact ⟨rfl, rfl, hc⟩
  | succ rounds ih =>
    cases link with
    | none => exact ⟨rfl, rfl, hc⟩
    | some d =>
      have hround : (m.reparentChild process d).children = m.children ∧
          (m.reparentChild process d).unreaped = m.unreaped ∧
          (m.reparentChild process d).initProcess = m.initProcess ∧
          (m.reparentChild process d).parent = update m.parent d (some process) := by
        unfold ProcManager.reparentChild
        split
        · rename_i hnone
          exact absurd (hinit.symm.trans hnone) (Option.some_ne_none process)
        · rename_i initProcess hsome
          obtain rfl := Option.some.inj (hinit.symm.trans hsome)
          rw [if_neg (not_not.2 rfl)]
          exact ⟨rfl, rfl, rfl, rfl⟩
      obtain ⟨hchildren, hunreaped, hsame, hparent⟩ := hround
      have hc' : (m.reparentChild process d).parent c = some process := by
        rw [hparent]
        by_cases hcd : c = d
        · rw [hcd, update_self]
        · rw [update_of_ne hcd, hc]
      rw [← hchildren, ← hunreaped]
      exact ih (m.siblingNext d) (m.reparentChild process d) (hsame.trans hinit) hc'

/-! ### Reaping -/

/-- The cursor of `ns_proc_reap` stops in front of the child. -/
lemma Ok.reapCursor_eq (h : m.Ok [] kids) {parent : ℕ} (hp : parent ∈ m.unreaped) {xs ys : List ℕ}
    (hkids : kids parent = xs ++ child :: ys) : m.reapCursor parent child = xs.getLast? := by
  have hlist : (m.childList parent).Lists ([] ++ (xs ++ child :: ys)) :=
    hkids ▸ h.holds.follows parent hp
  have hlength : (xs ++ child :: ys).length ≤ m.unreaped.card := hkids ▸ h.kids_length_le hp
  have hnot : child ∉ xs := fun hmem =>
    (nodup_middle.1 hlist.nodup).notMem (mem_append_left ys hmem)
  have htake : (xs ++ child :: ys).takeWhile (fun y => !decide (y = child)) = xs := by
    rw [takeWhile_append_of_pos, takeWhile_cons_of_neg, append_nil]
    · simp
    · intro y hy
      simp [ne_of_mem_of_not_mem hy hnot]
  have hseek := hlist.seek (fun y => decide (y = child)) hlength
  rw [htake] at hseek
  exact hseek

/-- A zombie can be reaped by its parent. -/
lemma Ok.reaps_iff (h : m.Ok [] kids) {parent : ℕ} (hp : parent ∈ m.unreaped)
    (hchild : child ∈ m.unreaped) :
    m.Reaps parent child ↔ m.parent child = some parent ∧ m.processState child = .zombie := by
  refine ⟨fun hreaps => ⟨hreaps.1, hreaps.2.1⟩, fun ⟨hparent, hzombie⟩ => ⟨hparent, hzombie, ?_⟩⟩
  have hmem := (h.holds.mem_kids_iff parent hp child).2 ⟨hchild, hparent, not_mem_nil⟩
  obtain ⟨xs, ys, hkids⟩ := append_of_mem hmem
  have hlist : (m.childList parent).Lists (xs ++ child :: ys) :=
    hkids ▸ h.holds.follows parent hp
  rw [h.reapCursor_eq hp hkids, hlist.read_getLast]
  rfl

/-- What `release_process` does to the processes. -/
lemma releaseProcess_eq (m : ProcManager) (process : ℕ) : ∃ allThreads unreapedThreads,
    m.releaseProcess process =
      { m with
        allThreads := allThreads
        unreapedThreads := unreapedThreads
        initProcess := if m.initProcess = some process then none else m.initProcess
        allProcesses := m.allProcesses.remove m.unreaped.card process
        processState := update m.processState process .reaped
        unreaped := m.unreaped.erase process } := by
  unfold ProcManager.releaseProcess
  split
  · exact ⟨m.allThreads, m.unreapedThreads, rfl⟩
  · exact ⟨_, _, rfl⟩

/-- Releasing a process without parent and children keeps the manager in order. -/
lemma Ok.releaseProcess (h : m.Ok [] kids) (hp : process ∈ m.unreaped)
    (hroot : m.parent process = none) (hkids : kids process = []) :
    (m.releaseProcess process).Ok [] kids := by
  obtain ⟨allThreads, unreapedThreads, heq⟩ := m.releaseProcess_eq process
  obtain ⟨l, hl, hset⟩ := h.listed
  have hmem : ∀ q ∈ m.unreaped.erase process, q ∈ m.unreaped := fun q hq =>
    mem_of_mem_erase hq
  rw [heq]
  refine
    { holds := h.holds.erase hp hroot hkids
      count := fun q hq => h.count q (hmem q hq)
      parentPid := fun c hc => h.parentPid c (hmem c hc)
      pid_inj := fun c hc d hd => h.pid_inj c (hmem c hc) d (hmem d hd)
      pid_ne_zero := fun c hc => h.pid_ne_zero c (hmem c hc)
      zombie := fun q hq hstate hinit => ?_
      listed := ⟨l.erase process, hl.remove (listed_length hl hset).le process, ?_⟩
      not_reaped := fun q hq hstate => ?_
      init_mem := fun p hinit => ?_ }
  · have hqp := ne_of_mem_erase hq
    refine h.zombie q (hmem q hq) ((update_of_ne hqp _ _).symm.trans hstate) fun hold => ?_
    have hother : m.initProcess ≠ some process := fun hown =>
      hqp (Option.some.inj (hold.symm.trans hown))
    exact hinit ((if_neg hother).trans hold)
  · ext x
    rw [mem_toFinset, hl.nodup.mem_erase_iff, mem_erase, ← hset, mem_toFinset]
  · have hqp := ne_of_mem_erase hq
    exact h.not_reaped q (hmem q hq) ((update_of_ne hqp _ _).symm.trans hstate)
  · change (if m.initProcess = some process then none else m.initProcess) = some p at hinit
    by_cases hown : m.initProcess = some process
    · rw [if_pos hown] at hinit
      exact absurd hinit.symm (Option.some_ne_none p)
    · rw [if_neg hown] at hinit
      refine mem_erase.2 ⟨?_, h.init_mem p hinit⟩
      rintro rfl
      exact hown hinit

/-- A child is taken out of the list of its parent. -/
def detach (m : ProcManager) (parent child : ℕ) : ProcManager :=
  { (m.setChildList parent
      ((m.childList parent).unlink (m.reapCursor parent child) child)) with
    parent := update m.parent child none
    childCount := update m.childCount parent (m.childCount parent - 1) }

/-- Taking a child out of the list of its parent keeps the manager in order. -/
lemma Ok.detach (h : m.Ok [] kids) {parent : ℕ} (hp : parent ∈ m.unreaped) {xs ys : List ℕ}
    (hkids : kids parent = xs ++ child :: ys) :
    (m.detach parent child).Ok [] (update kids parent (xs ++ ys)) := by
  rw [ProcManager.detach, h.reapCursor_eq hp hkids]
  refine
    { h with
      holds := h.holds.detach hp hkids
      count := fun q hq => ?_
      parentPid := fun c hc q hparent => ?_
      pid_ne_zero := fun c hc hparent => ?_
      zombie := fun q hq hstate hinit => ?_ }
  · change update m.childCount parent (m.childCount parent - 1) q = _
    by_cases hqp : q = parent
    · subst hqp
      rw [update_self, update_self, h.count q hq, hkids]
      simp
    · rw [update_of_ne hqp, update_of_ne hqp, h.count q hq]
  · change update m.parent child none c = some q at hparent
    have hcc : c ≠ child := by
      rintro rfl
      exact Option.some_ne_none q (hparent.symm.trans (update_self ..))
    rw [update_of_ne hcc] at hparent
    exact h.parentPid c hc q hparent
  · change update m.parent child none c ≠ none at hparent
    have hcc : c ≠ child := by
      rintro rfl
      exact hparent (update_self ..)
    rw [update_of_ne hcc] at hparent
    exact h.pid_ne_zero c hc hparent
  · have hold := h.zombie q hq hstate hinit
    by_cases hqp : q = parent
    · subst hqp
      exact absurd (hkids.symm.trans hold) (append_ne_nil_of_right_ne_nil xs
        (cons_ne_nil child ys))
    · rw [update_of_ne hqp, hold]

/-- What `ns_proc_reap` does to a child that it takes. -/
lemma nsProcReap_of_reaps {parent : ℕ} (h : m.Reaps parent child) :
    (m.nsProcReap parent child).2.2 = (m.detach parent child).releaseProcess child := by
  unfold ProcManager.nsProcReap
  rw [if_pos h]
  rfl

/-- `ns_proc_reap` changes nothing for any other process. -/
lemma nsProcReap_of_not_reaps {parent : ℕ} (h : ¬m.Reaps parent child) :
    (m.nsProcReap parent child).2.2 = m := by
  unfold ProcManager.nsProcReap
  rw [if_neg h]

/-- A zombie has children only if it is init. -/
lemma Ok.kids_of_zombie (h : m.Ok [] kids) (hchild : child ∈ m.unreaped)
    (hzombie : m.processState child = .zombie)
    (hkeeps : m.initProcess = some child → m.children child = none) : kids child = [] := by
  by_cases hinit : m.initProcess = some child
  · exact (h.kids_eq_nil_iff hchild).2 (hkeeps hinit)
  · exact h.zombie child hchild hzombie hinit

/-- Reaping keeps the tree unless it reaps an init process with children. -/
lemma Ok.nsProcReap (h : m.Ok [] kids) {parent : ℕ} (hp : m.Live parent)
    (hchild : child ∈ m.unreaped)
    (hkeeps : m.Reaps parent child → m.initProcess = some child → m.children child = none) :
    ∃ kids', (m.nsProcReap parent child).2.2.Ok [] kids' := by
  by_cases hreaps : m.Reaps parent child
  · have hmem := (h.holds.mem_kids_iff parent hp.1 child).2 ⟨hchild, hreaps.1, not_mem_nil⟩
    obtain ⟨xs, ys, hkids⟩ := append_of_mem hmem
    have hne : child ≠ parent := by
      rintro rfl
      exact ProcessState.noConfusion (hp.2.symm.trans hreaps.2.1)
    have hempty := h.kids_of_zombie hchild hreaps.2.1 (hkeeps hreaps)
    rw [nsProcReap_of_reaps hreaps]
    refine ⟨_, (h.detach hp.1 hkids).releaseProcess hchild (update_self ..) ?_⟩
    rw [update_of_ne hne, hempty]
  · rw [nsProcReap_of_not_reaps hreaps]
    exact ⟨kids, h⟩

/-- The loop of `ns_proc_wait` stops at a zombie of the list. -/
lemma waitLoop_mem {matching : Bool} (hl : Follows m.siblingNext link l)
    (hfound : (m.waitLoop pid rounds link matching).1 = some child) :
    child ∈ l ∧ m.processState child = .zombie := by
  induction rounds generalizing link matching l with
  | zero => exact absurd hfound.symm (Option.some_ne_none child)
  | succ rounds ih =>
    cases l with
    | nil =>
      have hnone : link = none := hl
      subst hnone
      exact absurd hfound.symm (Option.some_ne_none child)
    | cons x xs =>
      obtain ⟨rfl, hxs⟩ := hl
      rw [waitLoop] at hfound
      split at hfound
      · split at hfound
        · obtain rfl := Option.some.inj hfound
          exact ⟨mem_cons_self, ‹_›⟩
        · exact (ih hxs hfound).imp_left (mem_cons_of_mem x)
      · exact (ih hxs hfound).imp_left (mem_cons_of_mem x)

/-- The child that a wait finds can be reaped. -/
lemma Ok.waitSearch_mem (h : m.Ok [] kids) (hp : process ∈ m.unreaped)
    (hfound : (m.waitSearch process pid).1 = some child) :
    child ∈ m.unreaped ∧ m.Reaps process child := by
  obtain ⟨hmem, hzombie⟩ := waitLoop_mem (h.holds.follows process hp) hfound
  obtain ⟨hchild, hparent, -⟩ := h.mem_kids hp hmem
  exact ⟨hchild, (h.reaps_iff hp hchild).2 ⟨hparent, hzombie⟩⟩

/-- `ns_proc_wait` reaps the child that it finds, or else changes no process. -/
lemma nsProcWait_cases (m : ProcManager) (caller process : ℕ) (pid options : UInt32) :
    (∃ child, waitRefuses pid options = false ∧ (m.waitSearch process pid).1 = some child ∧
      (m.nsProcWait caller process pid options).2.2 = (m.nsProcReap process child).2.2) ∨
    ((waitRefuses pid options = false → (m.waitSearch process pid).1 = none) ∧
      ∃ waitKind waitKey waitPid, (m.nsProcWait caller process pid options).2.2 =
        { m with waitKind := waitKind, waitKey := waitKey, waitPid := waitPid }) := by
  unfold ProcManager.nsProcWait
  cases hrefuses : waitRefuses pid options with
  | true => exact .inr ⟨nofun, m.waitKind, m.waitKey, m.waitPid, rfl⟩
  | false =>
    obtain ⟨found, matching, hsearch⟩ : ∃ found matching,
      m.waitSearch process pid = (found, matching) := ⟨_, _, rfl⟩
    rw [hsearch]
    cases found with
    | some child => exact .inl ⟨child, rfl, rfl, rfl⟩
    | none =>
      refine .inr ⟨fun _ => rfl, ?_⟩
      dsimp only
      rw [if_neg Bool.false_ne_true]
      split
      · exact ⟨m.waitKind, m.waitKey, m.waitPid, rfl⟩
      · split
        · exact ⟨m.waitKind, m.waitKey, m.waitPid, rfl⟩
        · exact ⟨_, _, _, rfl⟩

/-! ### Runs -/

/-- Every unreaped process that has a parent is once in the list of that parent and in no other, its
parent is unreaped and its parent identifier that of the parent; every process counts its children.
-/
structure Tree (m : ProcManager) : Prop where
  once : ∀ c ∈ m.unreaped, ∀ p, m.parent c = some p → ∀ q ∈ m.unreaped, ∀ l,
    (m.childList q).Lists l → l.count c = if q = p then 1 else 0
  parent_mem : ∀ c ∈ m.unreaped, ∀ p, m.parent c = some p → p ∈ m.unreaped
  parentPid : ∀ c ∈ m.unreaped, ∀ p, m.parent c = some p → m.parentPid c = m.pid p
  count : ∀ p ∈ m.unreaped, ∃ l, (m.childList p).Lists l ∧ m.childCount p = l.length

/-- A manager in order has a tree of processes. -/
lemma Ok.tree (h : m.Ok [] kids) : m.Tree := by
  refine ⟨fun c hc p hparent q hq l hl => ?_, h.holds.parent_mem, h.parentPid,
    fun p hp => ⟨kids p, h.holds.follows p hp, h.count p hp⟩⟩
  obtain rfl : l = kids q := Follows.unique hl (h.holds.follows q hq)
  have hiff := h.holds.mem_kids_iff q hq c
  by_cases hqp : q = p
  · subst hqp
    rw [if_pos rfl]
    exact count_eq_one_of_mem hl.nodup (hiff.2 ⟨hc, hparent, not_mem_nil⟩)
  · rw [if_neg hqp, count_eq_zero]
    exact fun hmem => hqp (Option.some.inj ((hiff.1 hmem).2.1.symm.trans hparent))

/-- The call does not make an init process with children a zombie, and does not reap one. -/
def Keeps (m : ProcManager) : ProcEvent → Prop
  | .exit caller process _ =>
    m.Calls caller process → (m.endThread caller process).liveThreads process = 0 →
      m.initProcess = some process → m.children process = none
  | .wait caller process pid options =>
    m.Calls caller process → waitRefuses pid options = false →
      ∀ child, (m.waitSearch process pid).1 = some child → m.initProcess = some child →
        m.children child = none
  | .reap parent child =>
    m.Live parent → child ∈ m.unreaped → m.Reaps parent child → m.initProcess = some child →
      m.children child = none
  | _ => True

section

variable (h : m.Ok [] kids)
include h

/-- An event that keeps to the rules keeps the manager in order. -/
lemma Ok.step (event : ProcEvent) (hkeeps : m.Keeps event) :
    ∃ kids', (m.step event).Ok [] kids' := by
  cases event with
  | createKernel process thread outcome =>
    rw [ProcManager.step]
    split
    · exact h.nsProcCreateKernel (‹m.Fresh _ _›).1 outcome
    · exact ⟨kids, h⟩
  | spawn parent process thread actionCount outcome =>
    rw [ProcManager.step]
    split
    · rename_i hguard
      exact h.nsProcSpawn hguard.1.1 hguard.2 actionCount outcome
    · exact ⟨kids, h⟩
  | exec caller actionCount outcome => exact ⟨kids, h⟩
  | exit caller process status =>
    rw [ProcManager.step]
    split
    · rename_i hcalls
      obtain ⟨threadState, liveThreads, hended⟩ := m.endThread_eq caller process
      have hok : (m.endThread caller process).Ok [] kids := by
        rw [hended]
        exact h.of_threads
      unfold ProcManager.nsProcExit
      by_cases hlast : (m.endThread caller process).liveThreads process = 0
      · simp only [hlast, ne_eq, not_true_eq_false, if_false]
        refine hok.endProcess ?_ status ?_
        · rw [hended]
          exact hcalls.2.1
        · rw [hended]
          exact hkeeps hcalls hlast
      · simp only [hlast, ne_eq, not_false_eq_true, if_true]
        exact ⟨kids, hok⟩
    · exact ⟨kids, h⟩
  | wait caller process pid options =>
    rw [ProcManager.step]
    split
    · rename_i hcalls
      rcases m.nsProcWait_cases caller process pid options with
        ⟨child, hrefuses, hfound, heq⟩ | ⟨-, waitKind, waitKey, waitPid, heq⟩
      · rw [heq]
        exact h.nsProcReap hcalls.2 (h.waitSearch_mem hcalls.2.1 hfound).1
          fun _ => hkeeps hcalls hrefuses child hfound
      · rw [heq]
        exact ⟨kids, h.of_threads⟩
    · exact ⟨kids, h⟩
  | reap parent child =>
    rw [ProcManager.step]
    split
    · rename_i hguard
      exact h.nsProcReap hguard.1 hguard.2 (hkeeps hguard.1 hguard.2)
    · exact ⟨kids, h⟩
  | schedule thread state => exact ⟨kids, h.of_threads⟩

/-- Once an init process with children has exited, they are in no list. -/
lemma Ok.not_tree_exit (hp : process ∈ m.unreaped)
    (hinit : m.initProcess = some process) (hchildren : m.children process ≠ none) (status : ℤ) :
    ¬(m.endProcess process status).Tree := by
  intro htree
  obtain ⟨c, rest, hkids⟩ :=
    exists_cons_of_ne_nil fun hnil => hchildren ((h.kids_eq_nil_iff hp).1 hnil)
  obtain ⟨hc, hparent, -⟩ := h.mem_kids hp (hkids ▸ mem_cons_self : c ∈ kids process)
  obtain ⟨hempty, hunreaped, hstays⟩ := reparentLoop_init m.unreaped.card (m.children process)
    (m.abandon process status) hinit c hparent
  have hnone : (m.endProcess process status).children process = none :=
    (congrFun hempty process).trans (update_self ..)
  have hmem : ∀ q ∈ m.unreaped, q ∈ (m.endProcess process status).unreaped := fun q hq =>
    hunreaped.symm ▸ hq
  have honce := htree.once c (hmem c hc) process hstays process (hmem process hp) [] hnone
  rw [if_pos rfl] at honce
  exact Nat.zero_ne_one honce

/-- Once an init process with children has been reaped, their parent is gone. -/
lemma Ok.not_tree_reap {parent : ℕ} (hp : m.Live parent)
    (hchild : child ∈ m.unreaped) (hreaps : m.Reaps parent child)
    (hchildren : m.children child ≠ none) : ¬(m.nsProcReap parent child).2.2.Tree := by
  intro htree
  rw [nsProcReap_of_reaps hreaps] at htree
  obtain ⟨allThreads, unreapedThreads, heq⟩ := (m.detach parent child).releaseProcess_eq child
  rw [heq] at htree
  obtain ⟨c, rest, hkids⟩ :=
    exists_cons_of_ne_nil fun hnil => hchildren ((h.kids_eq_nil_iff hchild).1 hnil)
  obtain ⟨hc, hparent, -⟩ := h.mem_kids hchild (hkids ▸ mem_cons_self : c ∈ kids child)
  -- the child would be its own parent, which is alive
  have hne : c ≠ child := by
    rintro rfl
    obtain rfl := Option.some.inj (hparent.symm.trans hreaps.1)
    exact ProcessState.noConfusion (hp.2.symm.trans hreaps.2.1)
  have hgone := htree.parent_mem c (mem_erase.2 ⟨hne, hc⟩) child
    ((update_of_ne hne _ _).trans hparent)
  exact notMem_erase child m.unreaped hgone

/-- An event that does not keep to the rules breaks the tree. -/
lemma Ok.not_tree_step (event : ProcEvent) (hbreaks : ¬m.Keeps event) : ¬(m.step event).Tree := by
  cases event with
  | createKernel process thread outcome => exact absurd trivial hbreaks
  | spawn parent process thread actionCount outcome => exact absurd trivial hbreaks
  | exec caller actionCount outcome => exact absurd trivial hbreaks
  | schedule thread state => exact absurd trivial hbreaks
  | exit caller process status =>
    simp only [Keeps, not_forall] at hbreaks
    obtain ⟨hcalls, hlast, hinit, hchildren⟩ := hbreaks
    obtain ⟨threadState, liveThreads, hended⟩ := m.endThread_eq caller process
    have hok : (m.endThread caller process).Ok [] kids := by
      rw [hended]
      exact h.of_threads
    rw [ProcManager.step, if_pos hcalls]
    unfold ProcManager.nsProcExit
    simp only [hlast, ne_eq, not_true_eq_false, if_false]
    refine hok.not_tree_exit ?_ ?_ ?_ status
    · rw [hended]
      exact hcalls.2.1
    · rw [hended]
      exact hinit
    · rw [hended]
      exact hchildren
  | wait caller process pid options =>
    simp only [Keeps, not_forall] at hbreaks
    obtain ⟨hcalls, hrefuses, child, hfound, hinit, hchildren⟩ := hbreaks
    obtain ⟨hchild, hreaps⟩ := h.waitSearch_mem hcalls.2.1 hfound
    rw [ProcManager.step, if_pos hcalls]
    rcases m.nsProcWait_cases caller process pid options with
      ⟨child', -, hfound', heq⟩ | ⟨hnone, -⟩
    · obtain rfl := Option.some.inj (hfound.symm.trans hfound')
      rw [heq]
      exact h.not_tree_reap hcalls.2 hchild hreaps hchildren
    · exact absurd (hfound.symm.trans (hnone hrefuses)) (Option.some_ne_none child)
  | reap parent child =>
    simp only [Keeps, not_forall] at hbreaks
    obtain ⟨hp, hchild, hreaps, hinit, hchildren⟩ := hbreaks
    rw [ProcManager.step, if_pos ⟨hp, hchild⟩]
    exact h.not_tree_reap hp hchild hreaps hchildren

end

end ProcManager

/-- The processes form a tree throughout a run exactly if in no step of it an init process that has
children exits or is reaped. -/
theorem process_tree_throughout_iff (events : List ProcEvent) :
    Always ProcManager.step ProcManager.Tree ProcManager.init events ↔
      AllSteps ProcManager.step ProcManager.Keeps ProcManager.init events :=
  always_iff_allSteps (fun m => ∃ kids, m.Ok [] kids) (fun _ ⟨_, h⟩ => h.tree)
    (fun _ event ⟨_, h⟩ => h.step event) (fun _ event ⟨_, h⟩ => h.not_tree_step event)
    ⟨_, ProcManager.init_ok⟩ events

/-- The init process 0 has a child and exits. -/
def initExitEvents : List ProcEvent :=
  [.spawn none 0 0 0 .built, .spawn (some 0) 1 1 0 .built, .exit 0 0 0]

/-- The child of an init process that has exited has it as its parent, but the list of its children
is empty. -/
theorem init_exit_loses_child :
    let m := initExitEvents.foldl ProcManager.step ProcManager.init
    1 ∈ m.unreaped ∧ m.parent 1 = some 0 ∧ 0 ∈ m.unreaped ∧ m.children 0 = none ∧ ¬m.Tree := by
  have hrun : let m := initExitEvents.foldl ProcManager.step ProcManager.init
      1 ∈ m.unreaped ∧ m.parent 1 = some 0 ∧ 0 ∈ m.unreaped ∧ m.children 0 = none := by
    decide +kernel
  obtain ⟨hchild, hparent, hinit, hnone⟩ := hrun
  refine ⟨hchild, hparent, hinit, hnone, fun htree => ?_⟩
  have honce := htree.once 1 hchild 0 hparent 0 hinit [] hnone
  exact Nat.zero_ne_one honce

end Northstar
