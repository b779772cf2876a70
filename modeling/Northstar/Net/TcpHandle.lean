import Northstar.Net.TcpStream

/-! # Handles of connections and listeners

A handle is the slot of a connection with the generation of that slot, which has sixteen bits. A
slot that is given away gets the next generation; after 65535 times it has the old one again, and a
handle of long ago then stands for the connection that is there now.

A run is a list of calls on a stack. A call gives a slot away at most once, so that a handle stands
for one connection as long as its slot has been given away fewer than 65535 times. -/

namespace Northstar

open Function

/-- A call of the TCP interface that may change the stack. -/
inductive TcpCall
  | listen (localIpv4 : UInt32) (localPort : UInt16) (backlog : UInt8)
  | connect (localIpv4 : UInt32) (localPort : UInt16) (remoteIpv4 : UInt32) (remotePort : UInt16)
  | accept (handle : UInt32)
  | send (handle : UInt32) (data : List UInt8)
  | receive (handle : UInt32) (capacity : ℕ)
  | close (handle : UInt32)
  | abort (handle : UInt32)
  | input (source destination : UInt32) (wire : List UInt8) (nowMs : UInt64)
  | tick (nowMs : UInt64)

/-! ### Generations -/

/-- The next generation: 1 after 65535. -/
lemma toNat_nextTcpGeneration (g : UInt16) : (nextTcpGeneration g).toNat = g.toNat % 65535 + 1 := by
  have hlt := g.toNat_lt
  unfold nextTcpGeneration
  split_ifs with h
  · have h0 := congrArg UInt16.toNat h
    rw [UInt16.toNat_add] at h0
    simp only [UInt16.reduceToNat] at h0 ⊢
    omega
  · have h0 : (g + 1).toNat ≠ 0 := fun h0 => h (UInt16.toNat_inj.mp h0)
    rw [UInt16.toNat_add] at h0 ⊢
    simp only [UInt16.reduceToNat] at h0 ⊢
    omega

/-- The generation after `k + 1` new connections. -/
lemma toNat_nextTcpGeneration_iterate (g : UInt16) (k : ℕ) :
    (nextTcpGeneration^[k + 1] g).toNat = (g.toNat + k) % 65535 + 1 := by
  induction k with
  | zero => exact toNat_nextTcpGeneration g
  | succ k ih =>
    rw [iterate_succ_apply', toNat_nextTcpGeneration, ih]
    omega

/-- A generation comes back after 65535 steps only. -/
lemma nextTcpGeneration_iterate_ne (g : UInt16) {k : ℕ} (hpos : 0 < k) (hlt : k < 65535) :
    nextTcpGeneration^[k] g ≠ g := by
  intro h
  obtain ⟨k, rfl⟩ := Nat.exists_eq_succ_of_ne_zero hpos.ne'
  have hnat := toNat_nextTcpGeneration_iterate g k
  have hg := g.toNat_lt
  rw [h] at hnat
  omega

namespace TcpStack

/-- The stack after a call. -/
def step (s : TcpStack) : TcpCall → TcpStack
  | .listen localIpv4 localPort backlog => (s.nsTcpListen localIpv4 localPort backlog).2
  | .connect localIpv4 localPort remoteIpv4 remotePort =>
    (s.nsTcpConnect localIpv4 localPort remoteIpv4 remotePort).2
  | .accept handle => (s.nsTcpAccept handle).2
  | .send handle data => (s.nsTcpSend handle data).2
  | .receive handle capacity => (s.nsTcpReceive handle capacity).2
  | .close handle => (s.nsTcpClose handle).2
  | .abort handle => (s.nsTcpAbort handle).2
  | .input source destination wire nowMs => s.nsTcpInput source destination wire nowMs
  | .tick nowMs => s.nsTcpTick nowMs

/-- Every call moves the stack. -/
lemma moves_step (s : TcpStack) (call : TcpCall) : s.Moves (s.step call) := by
  cases call with
  | listen localIpv4 localPort backlog => exact moves_nsTcpListen s localIpv4 localPort backlog
  | connect localIpv4 localPort remoteIpv4 remotePort =>
    exact moves_nsTcpConnect s localIpv4 localPort remoteIpv4 remotePort
  | accept handle => exact (keeps_nsTcpAccept s handle).moves
  | send handle data => exact (keeps_nsTcpSend s handle data).moves
  | receive handle capacity => exact (keeps_nsTcpReceive s handle capacity).moves
  | close handle => exact (keeps_nsTcpClose s handle).moves
  | abort handle => exact (keeps_nsTcpAbort s handle).moves
  | input source destination wire nowMs => exact moves_nsTcpInput s source destination wire nowMs
  | tick nowMs => exact (keeps_nsTcpTick s nowMs).moves

/-- In every run, what a connection has received in order is what it has returned and what it has
in its buffer, and its state is past the FIN only if a FIN has been consumed. -/
lemma stream_run (channel : ℕ → Bool) (initialSequenceSeed : UInt32) (nowMs : UInt64)
    (calls : List TcpCall) (slot : TcpSlot) :
    ((calls.foldl step (nsTcpInit channel initialSequenceSeed nowMs)).sockets slot).Stream := by
  refine List.foldlRecOn (motive := fun s => (s.sockets slot).Stream) calls step ?_
    fun s h call _ => (moves_step s call).stream slot h
  exact ⟨rfl, fun hpast => absurd hpast Bool.false_ne_true⟩

/-- How often a run gives a slot to a new connection or listener. -/
def timesGiven (slot : TcpSlot) : TcpStack → List TcpCall → ℕ
  | _, [] => 0
  | s, call :: calls =>
    (if ((s.step call).sockets slot).generation = (s.sockets slot).generation then 0 else 1) +
      timesGiven slot (s.step call) calls

/-- A run leaves the connection in a slot, or gives the slot away and counts its generation on. -/
lemma generation_run (s : TcpStack) (slot : TcpSlot) (calls : List TcpCall) :
    ((calls.foldl step s).sockets slot).generation =
        nextTcpGeneration^[timesGiven slot s calls] (s.sockets slot).generation ∧
      (timesGiven slot s calls = 0 →
        ((calls.foldl step s).sockets slot).serial = (s.sockets slot).serial) := by
  induction calls generalizing s with
  | nil => exact ⟨rfl, fun _ => rfl⟩
  | cons call calls ih =>
    obtain ⟨hgeneration, hserial⟩ := ih (s.step call)
    rw [List.foldl_cons, timesGiven]
    rcases (moves_step s call).ages slot with ⟨hsame, hkept⟩ | hnext
    · rw [if_pos hsame, Nat.zero_add, ← hsame, ← hkept]
      exact ⟨hgeneration, hserial⟩
    · have hother : ((s.step call).sockets slot).generation ≠ (s.sockets slot).generation := by
        rw [hnext]
        exact nextTcpGeneration_iterate_ne _ one_pos (by decide)
      rw [if_neg hother, Nat.add_comm, iterate_succ_apply, ← hnext]
      exact ⟨hgeneration, fun hzero => absurd hzero (Nat.succ_ne_zero _)⟩

/-- A handle names the slot and the generation of its connection. -/
lemma connectionFromHandle_some {s : TcpStack} {handle : UInt32} {slot : TcpSlot}
    (h : s.connectionFromHandle handle = some slot) :
    slot.val = (handle &&& 0xff).toNat ∧ (s.sockets slot).generation = (handle >>> 8).toUInt16 := by
  unfold connectionFromHandle at h
  dsimp only at h
  split_ifs at h with hinvalid hslot hhigh hbad
  obtain rfl := Option.some.inj h
  exact ⟨rfl, not_not.mp fun hne => hbad (.inl hne)⟩

/-- From any state on, a handle that stands for a connection or listener stands for no other one
until its slot has been given away 65535 times. -/
theorem tcp_handle_names_one_connection {s : TcpStack} {handle : UInt32} {slot slot' : TcpSlot}
    (calls : List TcpCall) (h : s.connectionFromHandle handle = some slot)
    (hfew : timesGiven slot s calls < 65535)
    (h' : (calls.foldl step s).connectionFromHandle handle = some slot') :
    slot' = slot ∧ ((calls.foldl step s).sockets slot').serial = (s.sockets slot).serial := by
  obtain ⟨hslot, hgen⟩ := connectionFromHandle_some h
  obtain ⟨hslot', hgen'⟩ := connectionFromHandle_some h'
  obtain rfl : slot' = slot := Fin.ext (hslot'.trans hslot.symm)
  obtain ⟨hcounted, hserial⟩ := generation_run s slot' calls
  refine ⟨rfl, hserial ?_⟩
  by_contra hgiven
  refine nextTcpGeneration_iterate_ne (s.sockets slot').generation
    (Nat.pos_of_ne_zero hgiven) hfew ?_
  rw [← hcounted, hgen', hgen]

/-- A listener, and the calls behind it. -/
theorem tcp_handle_names_one_connection_listener :
    let s := (nsTcpInit (fun _ => false) 0 0).step (.listen 0 80 1)
    s.connectionFromHandle 0x100 = some 0 ∧
      (([TcpCall.connect 1 1 1 1].foldl step s).sockets 0).serial = (s.sockets 0).serial := by
  intro s
  have h : s.connectionFromHandle 0x100 = some 0 := by decide +kernel
  exact ⟨h, (tcp_handle_names_one_connection [.connect 1 1 1 1] h (by decide +kernel)
    (by decide +kernel)).2⟩

/-! ### A handle comes back -/

/-- Nothing is open, and the network lets nothing through; `g` is the generation of the first slot,
and `n` the next number. -/
structure Idle (g : UInt16) (n : ℕ) (s : TcpStack) : Prop where
  channel : ∀ i, s.channel i = false
  closed : ∀ slot, (s.sockets slot).state = .closed
  generation : (s.sockets 0).generation = g
  nextSerial : s.nextSerial = n

variable {g : UInt16} {n : ℕ} {s : TcpStack}

/-- An idle stack gives the first slot. -/
lemma Idle.allocate (h : Idle g n s) :
    ∃ s', s.allocateConnection = some (0, s') ∧ s'.channel = s.channel := by
  have hfind : (List.finRange nsTcpMaxSockets).find?
    (fun slot => (s.sockets slot).state = .closed) = some 0 := by
    rw [List.finRange_succ, List.find?_cons_of_pos (by simp [h.closed])]
  unfold allocateConnection
  rw [hfind]
  exact ⟨_, rfl, rfl⟩

/-- Whether a segment without data is sent is up to the channel. -/
lemma emitSegment_nil (s : TcpStack) (slot : TcpSlot) (sequence acknowledgment : UInt32)
    (flags : UInt8) (includeMss : Bool) :
    let sent := s.emitSegment slot sequence acknowledgment flags [] includeMss
    sent.1 = s.channel s.transmissions ∧ sent.2.channel = s.channel := by
  unfold emitSegment
  exact ⟨rfl, rfl⟩

/-- A connection attempt takes the first slot and gives it back. -/
lemma Idle.connect (h : Idle g n s) :
    Idle (nextTcpGeneration g) (n + 1) (s.step (.connect 1 1 1 1)) := by
  obtain ⟨s', halloc, hchannel⟩ := h.allocate
  have hopen : s.Opens (s'.openActive 0 1 1 1 1) 0 := (allocateConnection_opens halloc).openActive
  have hsilent : ∀ i, (s'.openActive 0 1 1 1 1).channel i = false := fun i =>
    (congrFun hchannel i).trans (h.channel i)
  change Idle _ _ (s.nsTcpConnect 1 1 1 1).2
  unfold nsTcpConnect
  have hport : (if (1 : UInt16) = 0 then s.allocateEphemeralPort 1 else (1, s)) = (1, s) :=
    if_neg (by decide)
  rw [if_neg (by decide), hport]
  dsimp only
  rw [if_neg (by decide), if_neg (by simp [h.closed]), halloc]
  dsimp only
  generalize s'.openActive 0 1 1 1 1 = s2 at hopen hsilent
  obtain ⟨hsent, hnetwork⟩ :=
    s2.emitSegment_nil 0 (s2.sockets 0).initialSendSequence 0 tcpSyn true
  have hstill : s2.Still (s2.emitSegment 0 (s2.sockets 0).initialSendSequence 0 tcpSyn [] true).2 :=
    (Still.refl s2).emitSegment
  generalize s2.emitSegment 0 (s2.sockets 0).initialSendSequence 0 tcpSyn [] true = sent
    at hsent hnetwork hstill
  rw [if_pos (hsent.trans (hsilent _))]
  dsimp only
  have hopen' := hopen.still hstill
  refine ⟨fun i => (congrFun hnetwork i).trans (hsilent i), fun slot => ?_, ?_, ?_⟩
  · by_cases hslot : slot = 0
    · rw [hslot, releaseConnection, modify_socket]
    · rw [releaseConnection, modify_socket_of_ne _ hslot, (hopen'.other slot hslot).state, h.closed]
  · rw [releaseConnection, modify_socket]
    exact hopen'.generation.trans (congrArg nextTcpGeneration h.generation)
  · rw [releaseConnection, modify, hopen'.nextSerial, h.nextSerial]

/-- An idle stack is idle again after connections that cannot be sent. -/
lemma Idle.connects (h : Idle g n s) (k : ℕ) :
    Idle (nextTcpGeneration^[k] g) (n + k)
      ((List.replicate k (TcpCall.connect 1 1 1 1)).foldl step s) := by
  induction k generalizing g n s with
  | zero => exact h
  | succ k ih =>
    rw [List.replicate_succ, List.foldl_cons, iterate_succ_apply, Nat.add_comm k,
      ← Nat.add_assoc]
    exact ih h.connect

/-- A listener takes the first slot. -/
lemma Idle.listen (h : Idle g n s) :
    let s' := s.step (.listen 0 80 1)
    s'.channel = s.channel ∧ (s'.sockets 0).generation = nextTcpGeneration g ∧
      (s'.sockets 0).serial = n ∧ (s'.sockets 0).state = .listen := by
  obtain ⟨s', halloc, hchannel⟩ := h.allocate
  have hopen := allocateConnection_opens halloc
  rw [step, nsTcpListen, if_neg (by decide), if_neg (by simp [h.closed]), halloc]
  dsimp only
  rw [modify_socket]
  exact ⟨hchannel, by rw [hopen.generation, h.generation], by rw [hopen.serial, h.nextSerial], rfl⟩

/-- The first handle names the listener in the first slot. -/
lemma connectionFromHandle_first {s : TcpStack} (hgen : (s.sockets 0).generation = 1)
    (hstate : (s.sockets 0).state = .listen) : s.connectionFromHandle 0x100 = some 0 := by
  unfold connectionFromHandle
  rw [if_neg (by decide), dif_pos (by decide)]
  rw [if_neg (by decide), if_neg]
  · rfl
  · rintro (hne | hclosed)
    · exact hne hgen
    · exact absurd (hclosed.symm.trans hstate) (by decide)

/-- After 65535 new connections the handle of the first listener names another one. -/
theorem tcp_handle_names_two_listeners :
    let s₁ := (nsTcpInit (fun _ => false) 0 0).step (.listen 0 80 1)
    let s₂ := (List.replicate 65534 (.connect 1 1 1 1)).foldl step (s₁.step (.abort 0x100))
    let s₃ := s₂.step (.listen 0 80 1)
    s₁.connectionFromHandle 0x100 = some 0 ∧ (s₁.sockets 0).serial = 1 ∧
      (∀ slot, (s₂.sockets slot).state = .closed) ∧
      s₃.connectionFromHandle 0x100 = some 0 ∧ (s₃.sockets 0).serial = 65536 := by
  intro s₁ s₂ s₃
  have hinit : Idle 0 1 (nsTcpInit (fun _ => false) 0 0) :=
    ⟨fun _ => rfl, fun _ => rfl, rfl, rfl⟩
  obtain ⟨hchannel, hgen, -, hstate⟩ := hinit.listen
  have hfirst : s₁.connectionFromHandle 0x100 = some 0 := connectionFromHandle_first hgen hstate
  have hsilent : (s₁.step (.abort 0x100)).channel = fun _ => false := by
    rw [step, nsTcpAbort, hfirst]
    dsimp only
    exact hchannel
  have hidle : Idle (nextTcpGeneration^[65534] 1) (2 + 65534) s₂ :=
    Idle.connects ⟨congrFun hsilent, by decide +kernel, by decide +kernel, by decide +kernel⟩ 65534
  clear_value s₂
  obtain ⟨-, hgen, hserial, hstate⟩ := hidle.listen
  have hback : nextTcpGeneration (nextTcpGeneration^[65534] 1) = 1 := by
    have hnat := toNat_nextTcpGeneration_iterate 1 65534
    rw [iterate_succ_apply'] at hnat
    exact UInt16.toNat_inj.mp hnat
  rw [hback] at hgen
  exact ⟨hfirst, by decide +kernel, hidle.closed, connectionFromHandle_first hgen hstate, hserial⟩

end TcpStack

end Northstar
