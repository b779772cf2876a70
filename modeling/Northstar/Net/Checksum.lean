import Northstar.Net.Tcp

/-! # Internet checksums

The checksum of RFC 1071 is the complement of the one's complement sum of the words of a string.
`net_checksum.c` adds up the words of a string that comes in pieces and folds the carries at the
end, `net_udp_checksum_ipv4` does so for a pseudo header and a segment, and `ns_tcp_checksum_ipv4`
folds after each word. All three sums stand for the same number modulo 65535, and are 0 for words of
0 only.

Data that is passed with its length is a list; a null pointer with length 0 is the empty one. -/

namespace Northstar

/-! ### The streaming checksum -/

/-- `net_checksum_state_t`. -/
structure NetChecksumState where
  sum : ℕ
  oddByte : UInt8
  hasOddByte : Bool
  deriving DecidableEq, Repr

/-- `net_checksum_init`. -/
def netChecksumInit : NetChecksumState := ⟨0, 0, false⟩

/-- The loop of `net_checksum_update`, and the byte that is left after it. -/
def checksumUpdateLoop (state : NetChecksumState) : List UInt8 → NetChecksumState
  | [] => state
  | [x] => { state with oddByte := x, hasOddByte := true }
  | x :: y :: rest =>
    checksumUpdateLoop
      { state with sum := (state.sum + (x.toNat * 2 ^ 8 + y.toNat)) % 2 ^ 32 } rest

/-- `net_checksum_update`. -/
def netChecksumUpdate (state : NetChecksumState) (data : List UInt8) : NetChecksumState :=
  match state.hasOddByte, data with
  | true, first :: rest =>
    checksumUpdateLoop
      { state with
        sum := (state.sum + (state.oddByte.toNat * 2 ^ 8 + first.toNat)) % 2 ^ 32
        hasOddByte := false } rest
  | true, [] => state
  | false, data => checksumUpdateLoop state data

/-- `net_checksum_finalize`. The carry of a sum of words is gone after two rounds. -/
def netChecksumFinalize (state : NetChecksumState) : UInt16 :=
  let sum :=
    if state.hasOddByte then (state.sum + state.oddByte.toNat * 2 ^ 8) % 2 ^ 32 else state.sum
  ~~~(UInt16.ofNat (foldCarry 2 sum))

/-- `net_checksum_compute`. -/
def netChecksumCompute (data : List UInt8) : UInt16 :=
  netChecksumFinalize (netChecksumUpdate netChecksumInit data)

/-! ### The checksum of UDP -/

/-- `NET_UDP_IPV4_PROTOCOL`. -/
abbrev netUdpIpv4Protocol : ℕ := 17

/-- `net_udp_checksum_ipv4`. The carry of a sum of words is gone after two rounds. -/
def netUdpChecksumIpv4 (source destination : UInt32) (segment : List UInt8) : UInt16 :=
  if segment.length > 65535 then 0xffff
  else
    let sum := source.toNat / 2 ^ 16 + source.toNat % 2 ^ 16 + destination.toNat / 2 ^ 16 +
      destination.toNat % 2 ^ 16 + netUdpIpv4Protocol + segment.length
    ~~~(UInt16.ofNat (foldCarry 2 (sum + sumWords segment)))
where
  /-- The sum of the words, the last of which may be half a one. -/
  sumWords : List UInt8 → ℕ
    | [] => 0
    | [x] => x.toNat * 2 ^ 8
    | x :: y :: rest => x.toNat * 2 ^ 8 + y.toNat + sumWords rest

open netUdpChecksumIpv4 (sumWords)

/-! ### The checksum of RFC 1071 -/

/-- The words of a string, the last of which is filled up with a zero byte. -/
def rfc1071Words : List UInt8 → List ℕ
  | [] => []
  | [x] => [x.toNat * 2 ^ 8]
  | x :: y :: rest => (x.toNat * 2 ^ 8 + y.toNat) :: rfc1071Words rest

/-- One's complement addition: the carry is added back in. -/
def onesAdd (a b : ℕ) : ℕ := if a + b ≤ 65535 then a + b else a + b - 65535

/-- The complement of the one's complement sum of the words. -/
def rfc1071Checksum (bytes : List UInt8) : UInt16 :=
  ~~~(UInt16.ofNat ((rfc1071Words bytes).foldl onesAdd 0))

/-- The pseudo header of a segment. -/
def pseudoHeader (source destination : UInt32) (protocol : UInt8) (length : ℕ) : List UInt8 :=
  beBytes32 source ++ beBytes32 destination ++ [0, protocol] ++ beBytes16 (UInt16.ofNat length)

/-- The words of a string: their sum, a bound for it, and that each has 16 bits. -/
lemma rfc1071Words_spec (bytes : List UInt8) :
    (rfc1071Words bytes).sum = sumWords bytes ∧
      2 * (rfc1071Words bytes).sum ≤ 65535 * (bytes.length + 1) ∧
      ∀ w ∈ rfc1071Words bytes, w ≤ 65535 := by
  induction bytes using rfc1071Words.induct with
  | case1 => simp [rfc1071Words, sumWords]
  | case2 x =>
    have hx := x.toNat_lt
    simp only [rfc1071Words, sumWords, List.sum_singleton, List.mem_singleton, forall_eq, true_and,
      List.length_singleton]
    omega
  | case3 x y rest ih =>
    have hx := x.toNat_lt
    have hy := y.toNat_lt
    obtain ⟨hsum, hle, hwords⟩ := ih
    rw [rfc1071Words, List.sum_cons, List.forall_mem_cons, hsum]
    rw [hsum] at hle
    exact ⟨rfl, by simp only [List.length_cons]; omega, by omega, hwords⟩

/-- The words of two parts, if the first has an even length. -/
lemma rfc1071Words_append {front : List UInt8} (h : Even front.length) (rest : List UInt8) :
    rfc1071Words (front ++ rest) = rfc1071Words front ++ rfc1071Words rest := by
  induction front using rfc1071Words.induct with
  | case1 => rfl
  | case2 x => exact absurd h (by simp)
  | case3 x y front ih =>
    have heven : Even front.length := by simpa [Nat.even_add_one] using h
    exact congrArg _ (ih heven)

/-- The loop over a segment adds its words. -/
lemma checksumWords_eq (segment : List UInt8) (sum : ℕ) :
    checksumWords segment sum = (rfc1071Words segment).foldl checksumAdd sum := by
  induction segment, sum using checksumWords.induct with
  | case1 sum => rfl
  | case2 x sum => rfl
  | case3 x y rest sum ih => exact ih

/-- A 16-bit number is one word. -/
lemma rfc1071Words_beBytes16 (value : UInt16) : rfc1071Words (beBytes16 value) = [value.toNat] := by
  have hlt := value.toNat_lt
  simp only [beBytes16, rfc1071Words, UInt16.toNat_toUInt8, UInt16.toNat_shiftRight,
    Nat.shiftRight_eq_div_pow, UInt16.reduceToNat, Nat.reduceMod]
  congr 1
  omega

/-- A 32-bit number is two words. -/
lemma rfc1071Words_beBytes32 (value : UInt32) :
    rfc1071Words (beBytes32 value) = [value.toNat / 2 ^ 16, value.toNat % 2 ^ 16] := by
  have hlt := value.toNat_lt
  simp only [beBytes32, rfc1071Words, UInt32.toNat_toUInt8, UInt32.toNat_shiftRight,
    Nat.shiftRight_eq_div_pow, UInt32.reduceToNat, Nat.reduceMod, List.cons.injEq, and_true]
  omega

/-- The words of the pseudo header and the segment. -/
lemma rfc1071Words_pseudoHeader (source destination : UInt32) (protocol : UInt8)
    {segment : List UInt8} (h : segment.length ≤ 65535) :
    rfc1071Words (pseudoHeader source destination protocol segment.length ++ segment) =
      [source.toNat / 2 ^ 16, source.toNat % 2 ^ 16, destination.toNat / 2 ^ 16,
        destination.toNat % 2 ^ 16, protocol.toNat, segment.length] ++ rfc1071Words segment := by
  have hlength : (UInt16.ofNat segment.length).toNat = segment.length := Nat.mod_eq_of_lt (by omega)
  have hprotocol : rfc1071Words [0, protocol] = [protocol.toNat] := by simp [rfc1071Words]
  rw [rfc1071Words_append ⟨6, rfl⟩, pseudoHeader, rfc1071Words_append ⟨5, rfl⟩,
    rfc1071Words_append ⟨4, rfl⟩, rfc1071Words_append ⟨2, rfl⟩, rfc1071Words_beBytes32,
    rfc1071Words_beBytes32, rfc1071Words_beBytes16, hprotocol, hlength]
  rfl

/-! ### Sums with folded carries -/

/-- A sum up to `bound` that is `n` modulo 65535, and 0 only for `n = 0`. -/
def Stands (bound sum n : ℕ) : Prop :=
  sum ≤ bound ∧ (sum = 0 ↔ n = 0) ∧ sum % 65535 = n % 65535

/-- The empty sum stands for 0. -/
lemma stands_zero (bound : ℕ) : Stands bound 0 0 := ⟨Nat.zero_le bound, Iff.rfl, rfl⟩

/-- A folded sum is determined by the number that it stands for. -/
lemma Stands.unique {sum sum' n : ℕ} (h : Stands 65535 sum n) (h' : Stands 65535 sum' n) :
    sum = sum' := by
  obtain ⟨hle, hzero, hmod⟩ := h
  obtain ⟨hle', hzero', hmod'⟩ := h'
  omega

/-- Adding with the end-around carry. -/
lemma stands_onesAdd {sum n w : ℕ} (h : Stands 65535 sum n) (hw : w ≤ 65535) :
    Stands 65535 (onesAdd sum w) (n + w) := by
  obtain ⟨hle, hzero, hmod⟩ := h
  unfold onesAdd
  split_ifs <;> refine ⟨?_, ?_, ?_⟩ <;> omega

/-- Adding as `checksum_add` does. -/
lemma stands_checksumAdd {sum n w : ℕ} (h : Stands 65536 sum n) (hw : w ≤ 65535) :
    Stands 65536 (checksumAdd sum w) (n + w) := by
  obtain ⟨hle, hzero, hmod⟩ := h
  unfold checksumAdd
  refine ⟨?_, ?_, ?_⟩ <;> omega

lemma stands_foldl {add : ℕ → ℕ → ℕ} {bound : ℕ}
    (hadd : ∀ {sum n w}, Stands bound sum n → w ≤ 65535 → Stands bound (add sum w) (n + w))
    {words : List ℕ} (hwords : ∀ w ∈ words, w ≤ 65535) {sum n : ℕ} (h : Stands bound sum n) :
    Stands bound (words.foldl add sum) (n + words.sum) := by
  induction words generalizing sum n with
  | nil => exact h
  | cons w words ih =>
    obtain ⟨hw, hwords⟩ := List.forall_mem_cons.1 hwords
    rw [List.foldl_cons, List.sum_cons, ← Nat.add_assoc]
    exact ih hwords (hadd h hw)

/-- Two rounds are enough to fold the carry of a sum of 32 bits. -/
lemma stands_foldCarry {sum n : ℕ} (h : Stands (2 ^ 32 - 1) sum n) :
    Stands 65535 (foldCarry 2 sum) n := by
  obtain ⟨hle, hzero, hmod⟩ := h
  simp only [foldCarry]
  split_ifs <;> refine ⟨?_, ?_, ?_⟩ <;> omega

/-- The sum of RFC 1071 stands for the sum of the words. -/
lemma stands_rfc1071 (bytes : List UInt8) :
    Stands 65535 ((rfc1071Words bytes).foldl onesAdd 0) (rfc1071Words bytes).sum := by
  have hstands := stands_foldl stands_onesAdd (rfc1071Words_spec bytes).2.2 (stands_zero 65535)
  rwa [Nat.zero_add] at hstands

/-- It does not matter when the carries of a sum are folded. -/
lemma rfc1071Checksum_of_stands {bytes : List UInt8} {sum : ℕ}
    (h : Stands (2 ^ 32 - 1) sum (rfc1071Words bytes).sum) :
    ~~~(UInt16.ofNat (foldCarry 2 sum)) = rfc1071Checksum bytes := by
  rw [(stands_foldCarry h).unique (stands_rfc1071 bytes)]
  rfl

/-! ### The three implementations -/

namespace NetChecksumState

/-- The byte that waits for the other half of its word. -/
def pending (state : NetChecksumState) : List UInt8 :=
  if state.hasOddByte then [state.oddByte] else []

/-- The state has read a string: words that are added up, and the byte that waits. -/
def Read (state : NetChecksumState) (bytes : List UInt8) : Prop :=
  ∃ front, Even front.length ∧ bytes = front ++ state.pending ∧
    state.sum = (rfc1071Words front).sum % 2 ^ 32

variable {state : NetChecksumState}

/-- An update begins with the byte that waits. -/
lemma netChecksumUpdate_eq (state : NetChecksumState) (data : List UInt8) :
    netChecksumUpdate state data =
      checksumUpdateLoop { state with hasOddByte := false } (state.pending ++ data) := by
  obtain ⟨sum, oddByte, hasOddByte⟩ := state
  cases hasOddByte <;> cases data <;> rfl

/-- The loop of `net_checksum_update` reads on from an even position. -/
lemma read_checksumUpdateLoop {front data : List UInt8} (heven : Even front.length)
    (hodd : state.hasOddByte = false) (hsum : state.sum = (rfc1071Words front).sum % 2 ^ 32) :
    (checksumUpdateLoop state data).Read (front ++ data) := by
  induction state, data using checksumUpdateLoop.induct generalizing front with
  | case1 state => exact ⟨front, heven, by rw [checksumUpdateLoop, pending, hodd]; rfl, hsum⟩
  | case2 state x => exact ⟨front, heven, rfl, hsum⟩
  | case3 state x y rest ih =>
    have hword : rfc1071Words (front ++ [x, y]) =
        rfc1071Words front ++ [x.toNat * 2 ^ 8 + y.toNat] := rfc1071Words_append heven _
    have hsum' : (state.sum + (x.toNat * 2 ^ 8 + y.toNat)) % 2 ^ 32 =
        (rfc1071Words (front ++ [x, y])).sum % 2 ^ 32 := by
      rw [hword, List.sum_append, List.sum_singleton, hsum, Nat.mod_add_mod]
    have hread := ih (by simpa using heven.add even_two) hodd hsum'
    rwa [List.append_assoc] at hread

/-- At the start nothing was read. -/
lemma read_init : netChecksumInit.Read [] := ⟨[], ⟨0, rfl⟩, rfl, rfl⟩

/-- `net_checksum_update` reads on, from an odd position too. -/
lemma Read.netChecksumUpdate {bytes : List UInt8} (h : state.Read bytes) (data : List UInt8) :
    (netChecksumUpdate state data).Read (bytes ++ data) := by
  obtain ⟨front, heven, rfl, hsum⟩ := h
  rw [netChecksumUpdate_eq, List.append_assoc]
  exact read_checksumUpdateLoop heven rfl hsum

/-- However the string is cut, the pieces lead to a state that has read it. -/
lemma Read.foldl {bytes : List UInt8} (h : state.Read bytes) (chunks : List (List UInt8)) :
    (chunks.foldl Northstar.netChecksumUpdate state).Read (bytes ++ chunks.flatten) := by
  induction chunks generalizing state bytes with
  | nil => rwa [List.flatten_nil, List.append_nil]
  | cons data chunks ih =>
    rw [List.foldl_cons, List.flatten_cons, ← List.append_assoc]
    exact ih (h.netChecksumUpdate data)

/-- `net_checksum_finalize` gives the checksum of what was read. -/
lemma Read.netChecksumFinalize {bytes : List UInt8} (h : state.Read bytes)
    (hlength : bytes.length ≤ 65535) : netChecksumFinalize state = rfc1071Checksum bytes := by
  obtain ⟨front, heven, rfl, hsum⟩ := h
  have hle := (rfc1071Words_spec (front ++ state.pending)).2.1
  apply rfc1071Checksum_of_stands
  have hvalue : (if state.hasOddByte then (state.sum + state.oddByte.toNat * 2 ^ 8) % 2 ^ 32
      else state.sum) = (rfc1071Words (front ++ state.pending)).sum % 2 ^ 32 := by
    rw [rfc1071Words_append heven, List.sum_append, pending, hsum]
    cases state.hasOddByte <;> simp [rfc1071Words]
  rw [hvalue, Nat.mod_eq_of_lt (by omega)]
  exact ⟨by omega, Iff.rfl, rfl⟩

end NetChecksumState

/-- The checksum of a string that comes in pieces. -/
lemma netChecksum_eq {chunks : List (List UInt8)} (h : chunks.flatten.length ≤ 65535) :
    netChecksumFinalize (chunks.foldl netChecksumUpdate netChecksumInit) =
      rfc1071Checksum chunks.flatten := by
  have hread := NetChecksumState.read_init.foldl chunks
  exact hread.netChecksumFinalize h

/-- `net_checksum_compute` gives the checksum. -/
lemma netChecksumCompute_eq {data : List UInt8} (h : data.length ≤ 65535) :
    netChecksumCompute data = rfc1071Checksum data := by
  have hread := NetChecksumState.read_init.netChecksumUpdate data
  exact hread.netChecksumFinalize h

/-- `ns_tcp_checksum_ipv4` gives the checksum of the pseudo header and the segment. -/
lemma nsTcpChecksumIpv4_eq (source destination : UInt32) {segment : List UInt8}
    (h : segment.length ≤ 65535) : nsTcpChecksumIpv4 source destination segment =
      rfc1071Checksum (pseudoHeader source destination 6 segment.length ++ segment) := by
  have hwords := rfc1071Words_pseudoHeader source destination 6 h
  have hspec := (rfc1071Words_spec
    (pseudoHeader source destination 6 segment.length ++ segment)).2.2
  obtain ⟨hle, hsame⟩ := stands_foldl stands_checksumAdd hspec (stands_zero 65536)
  rw [Nat.zero_add] at hsame
  rw [nsTcpChecksumIpv4, if_neg (by omega)]
  dsimp only
  rw [checksumWords_eq, ← List.foldl_append]
  apply rfc1071Checksum_of_stands
  rw [hwords] at hle hsame ⊢
  exact ⟨hle.trans (by decide), hsame⟩

/-- `net_udp_checksum_ipv4` gives the checksum of the pseudo header and the segment. -/
lemma netUdpChecksumIpv4_eq (source destination : UInt32) {segment : List UInt8}
    (h : segment.length ≤ 65535) : netUdpChecksumIpv4 source destination segment =
      rfc1071Checksum (pseudoHeader source destination 17 segment.length ++ segment) := by
  have hsource := source.toNat_lt
  have hdestination := destination.toNat_lt
  obtain ⟨hsum, hle, -⟩ := rfc1071Words_spec segment
  have hprotocol : netUdpIpv4Protocol = 17 := rfl
  rw [netUdpChecksumIpv4, if_neg (by omega)]
  apply rfc1071Checksum_of_stands
  rw [rfc1071Words_pseudoHeader source destination 17 h, ← hsum]
  simp only [List.cons_append, List.nil_append, List.sum_cons, UInt8.reduceToNat]
  refine ⟨?_, ?_, ?_⟩ <;> omega

/-! ### Verification -/

/-- What is stored for a checksum. -/
def storedChecksum (checksum : UInt16) : UInt16 := if checksum = 0 then 0xffff else checksum

/-- A sum that is completed by its checksum is the other representation of 0. -/
lemma Stands.complete {sum sum' n : ℕ} (h : Stands 65535 sum n)
    (h' : Stands 65535 sum' (n + (storedChecksum (~~~(UInt16.ofNat sum))).toNat)) :
    sum' = 65535 := by
  have hvalue : (~~~(UInt16.ofNat sum)).toNat = 65535 - sum := by
    rw [UInt16.toNat_not, UInt16.toNat_ofNat_of_lt' (lt_of_le_of_lt h.1 (by decide))]
    rfl
  have hstored : (storedChecksum (~~~(UInt16.ofNat sum))).toNat =
      if 65535 - sum = 0 then 65535 else 65535 - sum := by
    rw [storedChecksum, ← hvalue, apply_ite UInt16.toNat]
    exact if_congr UInt16.toNat_inj.symm rfl rfl
  obtain ⟨hle, hzero, hmod⟩ := h
  obtain ⟨hle', hzero', hmod'⟩ := h'
  split_ifs at hstored <;> omega

/-- With its checksum stored in place of zeros a string has the checksum 0. -/
lemma rfc1071Checksum_stored {front : List UInt8} (hfront : Even front.length) (rest : List UInt8) :
    rfc1071Checksum (front ++
      (beBytes16 (storedChecksum (rfc1071Checksum (front ++ ([0, 0] ++ rest)))) ++ rest)) = 0 := by
  have hsum : ∀ value, (rfc1071Words (front ++ (beBytes16 value ++ rest))).sum =
      (rfc1071Words front).sum + (rfc1071Words rest).sum + value.toNat := by
    intro value
    rw [rfc1071Words_append hfront, rfc1071Words_append ⟨1, rfl⟩, rfc1071Words_beBytes16]
    simp only [List.sum_append, List.sum_singleton]
    omega
  have hstands := fun value => hsum value ▸ stands_rfc1071 (front ++ (beBytes16 value ++ rest))
  exact congrArg (fun sum => ~~~(UInt16.ofNat sum)) ((hstands 0).complete (hstands _))

/-- A checksum over a header and a segment is 0 once its result is stored in the segment. -/
lemma check_stored {check : List UInt8 → UInt16} {header : ℕ → List UInt8} {front rest : List UInt8}
    (hheader : ∀ length, Even (header length).length) (hfront : Even front.length)
    (hlength : (front ++ [0, 0] ++ rest).length ≤ 65535)
    (hcheck : ∀ {segment}, segment.length ≤ 65535 →
      check segment = rfc1071Checksum (header segment.length ++ segment)) :
    check (front ++ beBytes16 (storedChecksum (check (front ++ [0, 0] ++ rest))) ++ rest) = 0 := by
  have hsame : ∀ value, (front ++ beBytes16 value ++ rest).length =
      (front ++ [0, 0] ++ rest).length := fun value => by simp [beBytes16]
  have heven := (hheader (front ++ [0, 0] ++ rest).length).add hfront
  rw [← List.length_append] at heven
  rw [hcheck (by rwa [hsame]), hsame, hcheck hlength]
  simpa only [List.append_assoc] using rfc1071Checksum_stored heven rest

/-- The three implementations compute the checksum of RFC 1071, over every string that is cut into
pieces in any way, and over the pseudo header and the segment. A segment in which the result is
stored in place of a word of 0, as `0xffff` if it is 0, verifies. -/
theorem internet_checksums_agree :
    (∀ chunks : List (List UInt8), chunks.flatten.length ≤ 65535 →
      netChecksumFinalize (chunks.foldl netChecksumUpdate netChecksumInit) =
        rfc1071Checksum chunks.flatten) ∧
    (∀ (source destination : UInt32) (segment : List UInt8), segment.length ≤ 65535 →
      nsTcpChecksumIpv4 source destination segment =
          rfc1071Checksum (pseudoHeader source destination 6 segment.length ++ segment) ∧
        netUdpChecksumIpv4 source destination segment =
          rfc1071Checksum (pseudoHeader source destination 17 segment.length ++ segment)) ∧
    ∀ (source destination : UInt32) (front rest : List UInt8), Even front.length →
      (front ++ [0, 0] ++ rest).length ≤ 65535 →
      let stored := fun check : List UInt8 → UInt16 =>
        front ++ beBytes16 (storedChecksum (check (front ++ [0, 0] ++ rest))) ++ rest
      nsTcpChecksumIpv4 source destination (stored (nsTcpChecksumIpv4 source destination)) = 0 ∧
        netUdpChecksumIpv4 source destination (stored (netUdpChecksumIpv4 source destination)) = 0 ∧
        netChecksumCompute (stored netChecksumCompute) = 0 := by
  refine ⟨fun chunks h => netChecksum_eq h, fun source destination segment h => ⟨?_, ?_⟩,
    fun source destination front rest hfront hlength => ⟨?_, ?_, ?_⟩⟩
  · exact nsTcpChecksumIpv4_eq source destination h
  · exact netUdpChecksumIpv4_eq source destination h
  · exact check_stored (fun _ => ⟨6, rfl⟩) hfront hlength (nsTcpChecksumIpv4_eq source destination)
  · exact check_stored (fun _ => ⟨6, rfl⟩) hfront hlength (netUdpChecksumIpv4_eq source destination)
  · have hheader : ∀ length : ℕ, Even ([] : List UInt8).length := fun _ => ⟨0, rfl⟩
    exact check_stored hheader hfront hlength netChecksumCompute_eq

/-- Three bytes in two pieces. -/
theorem internet_checksums_agree_pieces :
    netChecksumFinalize ([[1], [2, 3]].foldl netChecksumUpdate netChecksumInit) =
        rfc1071Checksum [1, 2, 3] ∧
      nsTcpChecksumIpv4 0x0a000001 0x0a000002 [1, 2, 3] =
        rfc1071Checksum (pseudoHeader 0x0a000001 0x0a000002 6 3 ++ [1, 2, 3]) ∧
      netChecksumCompute ([1, 2] ++
        beBytes16 (storedChecksum (netChecksumCompute ([1, 2] ++ [0, 0] ++ [3]))) ++ [3]) = 0 :=
  ⟨internet_checksums_agree.1 [[1], [2, 3]] (by decide),
    (internet_checksums_agree.2.1 0x0a000001 0x0a000002 [1, 2, 3] (by decide)).1,
    (internet_checksums_agree.2.2 0x0a000001 0x0a000002 [1, 2] [3] ⟨1, rfl⟩ (by decide)).2.2⟩

end Northstar
