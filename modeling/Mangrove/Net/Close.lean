import Mangrove.Net.Stream

/-! The one segment that waits for its acknowledgment. FIN waits in the same slot as data, so
what the states of a closing connection mean rests on what it holds. -/

namespace Mangrove.Net.Tcp

def Sent.finSequence (r : Sent) : Seq := r.sequence + BitVec.ofNat 32 r.payload.length

def FinSent (k : Socket) : Prop :=
  ∃ r ∈ k.sent, r.taken = true ∧ hasFlag r.flags flagFin = true ∧
    r.finSequence + 1#32 = k.conn.sndNxt

/-- A FIN left, and an acknowledgment of it and so of everything before it came in. -/
def FinAcked (k : Socket) (received : List Segment) : Prop :=
  FinSent k ∧ k.conn.sndUna = k.conn.sndNxt ∧
    ∃ s ∈ received, hasFlag s.flags flagAck = true ∧ s.acknowledgment = k.conn.sndNxt

/-- The segment in the slot has these flags and ends at `snd_nxt`. -/
structure Tracks (c : Connection) (flags : BitVec 8) : Prop where
  outstanding : c.txOutstanding = true
  txFlags : c.txFlags = flags
  sndUna : c.sndUna = c.txSequence
  sndNxt : c.sndNxt = c.txSequence + sequenceSpace flags c.txBuffer.bytes.length

/-- Nothing waits in the slot, and all that was sent is acknowledged. -/
structure Quiet (c : Connection) : Prop where
  outstanding : c.txOutstanding = false
  sndUna : c.sndUna = c.sndNxt

def SlotOk (k : Socket) (received : List Segment) : Prop :=
  match k.conn.state with
  | .closed => True
  | .synSent => Tracks k.conn flagSyn ∧ k.conn.txBuffer.bytes = []
  | .established => Quiet k.conn ∨ Tracks k.conn (flagAck ||| flagPsh)
  | .closeWait => Quiet k.conn ∨ Tracks k.conn (flagAck ||| flagPsh)
  | .finWait1 => Tracks k.conn (flagFin ||| flagAck) ∧ k.conn.txBuffer.bytes = []
  | .lastAck => Tracks k.conn (flagFin ||| flagAck) ∧ k.conn.txBuffer.bytes = []
  | .finWait2 => Quiet k.conn ∧ FinAcked k received
  | .timeWait => Quiet k.conn ∧ FinAcked k received

/-- The slot and the numbers it depends on have not changed. -/
structure KeepsSlot (c c' : Connection) : Prop where
  outstanding : c'.txOutstanding = c.txOutstanding
  txFlags : c'.txFlags = c.txFlags
  txBuffer : c'.txBuffer = c.txBuffer
  txSequence : c'.txSequence = c.txSequence
  sndUna : c'.sndUna = c.sndUna
  sndNxt : c'.sndNxt = c.sndNxt

section

variable {c c' : Connection} {k k' : Socket} {flags : BitVec 8} {now : Ticks} {ack : Seq}
  {received : List Segment} {env : Env}

lemma KeepsSlot.refl (c : Connection) : KeepsSlot c c := ⟨rfl, rfl, rfl, rfl, rfl, rfl⟩

lemma Tracks.keeps (h : Tracks c flags) (hk : KeepsSlot c c') : Tracks c' flags :=
  ⟨hk.outstanding.trans h.outstanding, hk.txFlags.trans h.txFlags,
    by rw [hk.sndUna, hk.txSequence, h.sndUna], by rw [hk.sndNxt, hk.txSequence, hk.txBuffer, h.sndNxt]⟩

lemma Quiet.keeps (h : Quiet c) (hk : KeepsSlot c c') : Quiet c' :=
  ⟨hk.outstanding.trans h.outstanding, by rw [hk.sndUna, hk.sndNxt, h.sndUna]⟩

lemma FinSent.keeps (h : FinSent k) (hnxt : k'.conn.sndNxt = k.conn.sndNxt)
    (hsent : k.sent ⊆ k'.sent) : FinSent k' := by
  obtain ⟨r, hr, htaken, hfin, hseq⟩ := h
  exact ⟨r, hsent hr, htaken, hfin, by rw [hnxt, hseq]⟩

lemma FinAcked.keeps {received' : List Segment} (h : FinAcked k received)
    (hk : KeepsSlot k.conn k'.conn) (hsent : k.sent ⊆ k'.sent) (hreceived : received ⊆ received') :
    FinAcked k' received' := by
  obtain ⟨hfin, huna, s, hs, hack, hseq⟩ := h
  exact ⟨hfin.keeps hk.sndNxt hsent, by rw [hk.sndUna, hk.sndNxt, huna], s, hreceived hs, hack,
    by rw [hk.sndNxt, hseq]⟩

lemma SlotOk.keeps {received' : List Segment} (h : SlotOk k received)
    (hstate : k'.conn.state = k.conn.state) (hk : KeepsSlot k.conn k'.conn)
    (hsent : k.sent ⊆ k'.sent) (hreceived : received ⊆ received') : SlotOk k' received' := by
  unfold SlotOk at h ⊢
  rw [hstate]
  cases hs : k.conn.state <;> rw [hs] at h
  case closed => trivial
  case synSent | finWait1 | lastAck => exact ⟨h.1.keeps hk, by rw [hk.txBuffer, h.2]⟩
  case established | closeWait => exact h.imp (·.keeps hk) (·.keeps hk)
  case finWait2 | timeWait => exact ⟨h.1.keeps hk, h.2.keeps hk hsent hreceived⟩

lemma slotOk_closed (h : k.conn.state = .closed) : SlotOk k received := by
  unfold SlotOk
  rw [h]
  trivial

lemma sequenceSpace_le (length : Nat) :
    (sequenceSpace flags length).toNat ≤ length + 2 := by
  unfold sequenceSpace
  split <;> split <;> bv_omega

lemma ack_in_window {una space : Seq} (hspace : space.toNat < 2 ^ 31)
    (hbefore : seqBefore ack una = false) (hafter : seqBefore (una + space) ack = false) :
    (ack - una).toNat ≤ space.toNat := by
  have h1 : ¬ 2 ^ 31 ≤ (ack - una).toNat := by rw [← seqBefore_iff, hbefore]; exact Bool.noConfusion
  have h2 : ¬ 2 ^ 31 ≤ (una + space - ack).toNat := by
    rw [← seqBefore_iff, hafter]
    exact Bool.noConfusion
  bv_omega

lemma Quiet.processAck (h : Quiet c) : processAck now c ack = c := by
  unfold Tcp.processAck
  split
  · rfl
  · next hwindow =>
    rw [Bool.or_eq_true, not_or, Bool.not_eq_true, Bool.not_eq_true] at hwindow
    have hzero : (ack - c.sndUna).toNat ≤ (0#32).toNat := by
      refine ack_in_window (by decide) hwindow.1 ?_
      rw [BitVec.add_zero, h.sndUna]
      exact hwindow.2
    rw [if_pos]
    bv_omega

lemma no_syn_fin : ∀ flags : BitVec 8, hasFlag flags (flagSyn ||| flagFin) = false →
    hasFlag flags flagSyn = false ∧ hasFlag flags flagFin = false := by
  decide

lemma sequenceSpace_data {length : Nat} (h : hasFlag flags (flagSyn ||| flagFin) = false) :
    sequenceSpace flags length = BitVec.ofNat 32 length := by
  obtain ⟨hsyn, hfin⟩ := no_syn_fin flags h
  simp [sequenceSpace, hsyn, hfin]

lemma Tracks.drop (h : Tracks c flags) (hdata : hasFlag flags (flagSyn ||| flagFin) = false)
    (hack : (ack - c.txSequence).toNat ≤ c.txBuffer.bytes.length) (deadline : Ticks) :
    Tracks { c with
      sndUna := ack
      txBuffer := c.txBuffer.drop (ack - c.txSequence).toNat
      txSequence := ack
      retransmitDeadline := deadline } flags where
  outstanding := h.outstanding
  txFlags := h.txFlags
  sndUna := rfl
  sndNxt := by
    have hnxt := h.sndNxt
    have hbounded := c.txBuffer.bounded
    rw [sequenceSpace_data hdata] at hnxt ⊢
    simp only [Buffer.drop, List.length_drop, hnxt]
    generalize c.txBuffer.bytes.length = n at *
    bv_omega

lemma ackState_outstanding (h : c.txOutstanding = true) : ackState now c = c := by
  simp [ackState, h]

lemma Tracks.processAck (h : Tracks c flags)
    (hone : hasFlag flags (flagSyn ||| flagFin) = true → c.txBuffer.bytes = [] ∧
      sequenceSpace flags 0 = 1#32) : processAck now c ack = c ∨
      (ack = c.sndNxt ∧ processAck now c ack =
        ackState now { c with sndUna := ack, txOutstanding := false, retries := 0 }) ∨
      (hasFlag flags (flagSyn ||| flagFin) = false ∧ Tracks (processAck now c ack) flags ∧
        (processAck now c ack).state = c.state) := by
  have hbuffer := c.txBuffer.bounded
  have hspace := @sequenceSpace_le flags c.txBuffer.bytes.length
  unfold mss at hbuffer
  unfold Tcp.processAck
  split
  · exact .inl rfl
  next hwindow =>
  split
  · exact .inl rfl
  next hnew =>
  rw [Bool.or_eq_true, not_or, Bool.not_eq_true, Bool.not_eq_true, h.sndNxt, ← h.sndUna] at hwindow
  have hin : (ack - c.sndUna).toNat ≤ (sequenceSpace flags c.txBuffer.bytes.length).toNat :=
    ack_in_window (by omega) hwindow.1 hwindow.2
  rw [h.sndUna] at hin hnew
  simp only [ackOutstanding, h.outstanding, if_true, h.txFlags]
  split
  · next hend =>
    refine .inr (.inl ⟨?_, rfl⟩)
    have hend' : ¬ 2 ^ 31 ≤
        (ack - (c.txSequence + sequenceSpace flags c.txBuffer.bytes.length)).toNat := by
      rw [← seqBefore_iff]
      simpa using hend
    rw [h.sndNxt]
    generalize sequenceSpace flags c.txBuffer.bytes.length = space at *
    bv_omega
  · next hend =>
    have hbefore : 2 ^ 31 ≤
        (ack - (c.txSequence + sequenceSpace flags c.txBuffer.bytes.length)).toNat := by
      rw [← seqBefore_iff]
      simpa using hend
    refine .inr (.inr ?_)
    cases hflags : hasFlag flags (flagSyn ||| flagFin) with
    | true =>
      exfalso
      obtain ⟨hnil, hspace1⟩ := hone hflags
      rw [hnil, List.length_nil, hspace1] at hin hbefore
      bv_omega
    | false =>
      rw [sequenceSpace_data hflags] at hin
      have hlen : (ack - c.txSequence).toNat ≤ c.txBuffer.bytes.length := by
        rwa [BitVec.toNat_ofNat, Nat.mod_eq_of_lt (by omega)] at hin
      have hfirst : seqBefore ack c.txSequence = false := by
        rw [← h.sndUna]
        exact hwindow.1
      simp only [hfirst, Bool.not_false, Bool.and_self, if_true, if_pos hlen]
      have hdrop := h.drop hflags hlen (now + rtoTicks)
      simp only [h.txFlags, h.outstanding] at hdrop
      rw [ackState_outstanding rfl]
      exact ⟨trivial, hdrop, rfl⟩

lemma serviceAck_slot : (serviceAck env k).conn.state = k.conn.state ∧
    KeepsSlot k.conn (serviceAck env k).conn ∧ k.sent ⊆ (serviceAck env k).sent := by
  unfold serviceAck
  split
  · dsimp only
    split
    all_goals exact ⟨rfl, ⟨rfl, rfl, rfl, rfl, rfl, rfl⟩, List.subset_append_left _ _⟩
  · exact ⟨rfl, .refl _, List.Subset.refl _⟩

lemma service_slot : (service env k).conn.state = .closed ∨
    (service env k).conn.state = k.conn.state ∧ KeepsSlot k.conn (service env k).conn ∧
      k.sent ⊆ (service env k).sent := by
  obtain ⟨hstate, hslot, hsent⟩ := @serviceAck_slot k env
  unfold service
  split
  · exact .inl rfl
  dsimp only
  split
  · exact .inl rfl
  unfold serviceResend
  split
  · split
    · exact .inl rfl
    · exact .inr ⟨hstate, ⟨hslot.outstanding, hslot.txFlags, hslot.txBuffer, hslot.txSequence,
        hslot.sndUna, hslot.sndNxt⟩, List.subset_append_of_subset_left _ hsent⟩
  · exact .inr ⟨hstate, hslot, hsent⟩

lemma SlotOk.service (h : SlotOk k received) : SlotOk (service env k) received := by
  rcases @service_slot k env with hclosed | ⟨hstate, hslot, hsent⟩
  · exact slotOk_closed hclosed
  · exact h.keeps hstate hslot hsent (List.Subset.refl _)

def Serves (env : Env) (c : Connection) : Prop :=
  env.current c.device c.deviceGeneration = true ∧
    ¬ (c.txOutstanding = true ∧ c.retransmitDeadline ≤ env.now ∧ maxRetries ≤ c.retries)

lemma serviceAck_fields : (serviceAck env k).conn.retransmitDeadline = k.conn.retransmitDeadline ∧
    (serviceAck env k).conn.retries = k.conn.retries := by
  unfold serviceAck
  split
  · dsimp only
    split <;> exact ⟨rfl, rfl⟩
  · exact ⟨rfl, rfl⟩

lemma service_state (h : k.conn.state ≠ .timeWait) (hserves : Serves env k.conn) :
    (Tcp.service env k).conn.state = k.conn.state := by
  obtain ⟨hstate, hslot, -⟩ := @serviceAck_slot k env
  obtain ⟨hdeadline, hretries⟩ := @serviceAck_fields k env
  unfold Tcp.service
  rw [if_neg (by rw [hserves.1]; exact Bool.noConfusion)]
  rw [if_neg (by rw [hstate]; exact fun hwait => h hwait.1)]
  unfold serviceResend
  split
  · next hdue =>
    rw [if_neg]
    · exact hstate
    · rw [hretries]
      rw [hslot.outstanding, hdeadline] at hdue
      exact fun hmax => hserves.2 ⟨hdue.1, hdue.2, hmax⟩
  · exact hstate

lemma service_lastAck (h : k.conn.state = .lastAck) (hserves : Serves env k.conn) :
    (Tcp.service env k).conn.state = .lastAck :=
  (service_state (by rw [h]; exact State.noConfusion) hserves).trans h

lemma Quiet.sendTracked (h : Quiet k.conn) {payload : List UInt8} (hlen : payload.length ≤ mss) :
    Tracks (sendTracked env k flags payload).2.conn flags ∧
      (sendTracked env k flags payload).2.conn.txBuffer.bytes = payload ∧
      (sendTracked env k flags payload).2.conn.state = k.conn.state := by
  unfold Tcp.sendTracked
  rw [dif_neg (by rw [h.outstanding]; exact fun h => h.elim Bool.noConfusion (by omega))]
  exact ⟨⟨rfl, rfl, h.sndUna, rfl⟩, rfl, rfl⟩

lemma sendTracked_outstanding (h : k.conn.txOutstanding = true) (payload : List UInt8) :
    sendTracked env k flags payload = (false, k) := by
  unfold Tcp.sendTracked
  rw [dif_pos (.inl h)]

lemma slotOk_established (h : k.conn.state = .established) :
    SlotOk k received ↔ Quiet k.conn ∨ Tracks k.conn (flagAck ||| flagPsh) := by
  unfold SlotOk
  rw [h]

lemma slotOk_synSent (h : k.conn.state = .synSent) :
    SlotOk k received ↔ Tracks k.conn flagSyn ∧ k.conn.txBuffer.bytes = [] := by
  unfold SlotOk
  rw [h]

section

variable (h : SlotOk k received)

include h

lemma SlotOk.sendLoop (hstate : k.conn.state = .established)
    (rest : List UInt8) : SlotOk (sendLoop env k rest).2 received := by
  unfold Tcp.sendLoop
  split
  · exact h
  split
  · exact h
  dsimp only
  have hsent : SlotOk (sendTracked env k (flagAck ||| flagPsh)
      (rest.take (min (min rest.length mss) k.conn.remoteWindow.toNat))).2 received := by
    rcases (slotOk_established hstate).mp h with hquiet | htracks
    · obtain ⟨htracks, -, hstate'⟩ := @Quiet.sendTracked k (flagAck ||| flagPsh) env hquiet
        (rest.take (min (min rest.length mss) k.conn.remoteWindow.toNat))
        (by rw [List.length_take]; omega)
      exact (slotOk_established (hstate'.trans hstate)).mpr (.inr htracks)
    · rw [sendTracked_outstanding htracks.outstanding]
      exact h
  split <;> next heq => rwa [heq] at hsent

lemma SlotOk.tcpSend (data : List UInt8) : SlotOk (tcpSend env k data).2 received := by
  unfold Tcp.tcpSend
  split
  · exact h
  · next hstate => exact h.sendLoop (not_not.mp hstate) data

lemma SlotOk.timeOut :
    SlotOk { k with conn := timeOut k.conn } received := by
  unfold Tcp.timeOut
  split
  · exact slotOk_closed rfl
  · exact h

lemma SlotOk.waitFor (wanted : State) (start : Ticks) :
    SlotOk (waitFor env k wanted start).2 received ∧ ((waitFor env k wanted start).1 = .ready →
        (waitFor env k wanted start).2.conn.state = wanted) := by
  unfold Tcp.waitFor
  split
  · dsimp only
    split
    · next hwanted => exact ⟨h.service, fun _ => hwanted⟩
    split
    all_goals exact ⟨h.service, Wait.noConfusion⟩
  · exact ⟨h.timeOut, Wait.noConfusion⟩

lemma SlotOk.closed : SlotOk (closed k).2 received :=
  h.keeps rfl ⟨rfl, rfl, rfl, rfl, rfl, rfl⟩ (List.Subset.refl _) (List.Subset.refl _)

lemma SlotOk.turn (pc : Pc) : SlotOk (turn env k pc).2 received := by
  cases pc with
  | idle result => exact h
  | connecting start =>
    obtain ⟨hwait, -⟩ := @SlotOk.waitFor k received env h .established (start.getD env.now)
    simp only [Tcp.turn]
    split <;> next heq => rwa [heq] at hwait
  | sending rest start =>
    obtain ⟨hwait, hready⟩ := @SlotOk.waitFor k received env h .established (start.getD env.now)
    simp only [Tcp.turn]
    split
    · next heq =>
      rw [heq] at hwait hready
      exact hwait.sendLoop (hready rfl) rest
    · next heq => rwa [heq] at hwait
    · next heq => rwa [heq] at hwait
  | closing start =>
    simp only [Tcp.turn]
    split
    · split
      · exact h.service.closed
      · exact h.service
    · exact h.timeOut

lemma SlotOk.sendFin {state : State}
    (hfrom : k.conn.state = .established ∨ k.conn.state = .closeWait)
    (hto : state = .finWait1 ∨ state = .lastAck) (hfree : k.conn.txOutstanding = false) :
    SlotOk (sendFin env k state) received := by
  have hquiet : Quiet k.conn := by
    have hslot : Quiet k.conn ∨ Tracks k.conn (flagAck ||| flagPsh) := by
      unfold SlotOk at h
      rcases hfrom with hfrom | hfrom <;> rwa [hfrom] at h
    refine hslot.resolve_right fun htracks => ?_
    rw [htracks.outstanding] at hfree
    cases hfree
  have hquiet' : Quiet { k with conn := { k.conn with state } }.conn := ⟨hquiet.1, hquiet.2⟩
  obtain ⟨htracks, hnil, hstate⟩ :=
    @Quiet.sendTracked _ (flagFin ||| flagAck) env hquiet' [] (Nat.zero_le _)
  unfold SlotOk Tcp.sendFin
  rw [hstate]
  rcases hto with rfl | rfl
  · exact ⟨htracks, hnil⟩
  · exact ⟨htracks, hnil⟩

end

/-- What `tcp_close` needs: the slot is free when FIN is to be sent. -/
def CloseFree (env : Env) (k : Socket) : Prop :=
  (service env k).conn.state = .established ∨ (service env k).conn.state = .closeWait →
    (service env k).conn.txOutstanding = false

lemma SlotOk.tcpClose (h : SlotOk k received) (hfree : CloseFree env k) :
    SlotOk (tcpClose env k).2 received := by
  have hservice := @SlotOk.service k received env h
  unfold Tcp.tcpClose
  dsimp only
  split
  · next hstate => exact hservice.sendFin (.inl hstate) (.inl rfl) (hfree (.inl hstate))
  · next hstate => exact hservice.sendFin (.inr hstate) (.inr rfl) (hfree (.inr hstate))
  · exact hservice.closed
  · exact hservice
  · exact hservice

end

section

variable {c : Connection} {k : Socket} {now : Ticks} {ack : Seq} {received : List Segment}
  {env : Env}

lemma acceptFin_slot (c : Connection) : KeepsSlot c (acceptFin now c) ∧
    ((acceptFin now c).state = c.state ∨
      c.state = .established ∧ (acceptFin now c).state = .closeWait ∨
      c.state = .finWait2 ∧ (acceptFin now c).state = .timeWait) := by
  unfold acceptFin
  dsimp only
  split
  · next hstate => exact ⟨⟨rfl, rfl, rfl, rfl, rfl, rfl⟩, .inr (.inl ⟨hstate, rfl⟩)⟩
  · next hstate => exact ⟨⟨rfl, rfl, rfl, rfl, rfl, rfl⟩, .inr (.inr ⟨hstate, rfl⟩)⟩
  · exact ⟨⟨rfl, rfl, rfl, rfl, rfl, rfl⟩, .inl rfl⟩

lemma receiveData_slot (s : Segment) : KeepsSlot c (receiveData now c s) ∧
    ((receiveData now c s).state = c.state ∨
      c.state = .established ∧ (receiveData now c s).state = .closeWait ∨
      c.state = .finWait2 ∧ (receiveData now c s).state = .timeWait) := by
  unfold receiveData
  split
  · exact ⟨.refl _, .inl rfl⟩
  split
  · unfold acceptPayload
    split
    · split
      · exact ⟨⟨rfl, rfl, rfl, rfl, rfl, rfl⟩, .inl rfl⟩
      · split
        · obtain ⟨hslot, hstate⟩ := @acceptFin_slot now { c with
            receiveBuffer := c.receiveBuffer.push s.payload (by omega)
            rcvNxt := c.rcvNxt + BitVec.ofNat 32 s.payload.length
            ackQueued := c.ackQueued || s.payload ≠ [] }
          exact ⟨⟨hslot.1, hslot.2, hslot.3, hslot.4, hslot.5, hslot.6⟩, hstate⟩
        · exact ⟨⟨rfl, rfl, rfl, rfl, rfl, rfl⟩, .inl rfl⟩
    · exact ⟨⟨rfl, rfl, rfl, rfl, rfl, rfl⟩, .inl rfl⟩
  · exact ⟨.refl _, .inl rfl⟩

lemma SlotOk.receiveData {sent : List Sent} (h : SlotOk ⟨c, sent⟩ received) (s : Segment) :
    SlotOk ⟨receiveData now c s, sent⟩ received := by
  obtain ⟨hslot, hsame | ⟨hfrom, hto⟩ | ⟨hfrom, hto⟩⟩ := @receiveData_slot c now s
  · exact h.keeps hsame hslot (List.Subset.refl _) (List.Subset.refl _)
  · unfold SlotOk at h ⊢
    simp only [hfrom] at h
    simp only [hto]
    exact h.imp (·.keeps hslot) (·.keeps hslot)
  · unfold SlotOk at h ⊢
    simp only [hfrom] at h
    simp only [hto]
    exact ⟨h.1.keeps hslot, h.2.keeps hslot (List.Subset.refl _) (List.Subset.refl _)⟩

def Connection.slotEnd (c : Connection) : Seq :=
  c.txSequence + sequenceSpace c.txFlags c.txBuffer.bytes.length

/-- The segment in the slot left at least once, perhaps with bytes that are acknowledged by
now. -/
def SlotSent (k : Socket) : Prop :=
  ∃ r ∈ k.sent, r.taken = true ∧ r.flags = k.conn.txFlags ∧
    r.sequence + sequenceSpace r.flags r.payload.length = k.conn.slotEnd

/-- What is assumed of the peer: it acknowledges the segment in the slot, whatever this is,
only when that segment has left. -/
def Honest (k : Socket) (s : Segment) : Prop :=
  hasFlag s.flags flagAck = true → k.conn.txOutstanding = true →
    s.acknowledgment = k.conn.slotEnd → SlotSent k

/-- FIN left if the slot holds it and its segment left. -/
lemma FinSent.of_slotSent (h : Tracks k.conn (flagFin ||| flagAck)) (hsent : SlotSent k) :
    FinSent k := by
  obtain ⟨r, hr, htaken, hflags, hend⟩ := hsent
  rw [h.txFlags] at hflags
  refine ⟨r, hr, htaken, by rw [hflags]; decide, ?_⟩
  rw [h.sndNxt, ← h.txFlags]
  refine Eq.trans ?_ hend
  rw [hflags, Sent.finSequence, BitVec.add_assoc]
  congr 1
  have hsyn : hasFlag (flagFin ||| flagAck) flagSyn = false := by decide
  have hfin : hasFlag (flagFin ||| flagAck) flagFin = true := by decide
  simp [sequenceSpace, hsyn, hfin]

lemma ackOutstanding_state : (ackOutstanding now c ack).state = c.state := by
  unfold ackOutstanding
  dsimp only
  repeat' split
  all_goals rfl

lemma processAck_closed (h : c.state = .closed) : (processAck now c ack).state = .closed := by
  unfold Tcp.processAck
  split
  · exact h
  split
  · exact h
  · have hstate : (ackOutstanding now { c with sndUna := ack } ack).state = .closed :=
      ackOutstanding_state.trans h
    simp [ackState, hstate]

lemma processAck_data (h : Quiet c ∨ Tracks c (flagAck ||| flagPsh))
    (hstate : c.state = .established ∨ c.state = .closeWait) :
    (Quiet (processAck now c ack) ∨ Tracks (processAck now c ack) (flagAck ||| flagPsh)) ∧
      (processAck now c ack).state = c.state := by
  rcases h with hquiet | htracks
  · rw [hquiet.processAck]
    exact ⟨.inl hquiet, rfl⟩
  · rcases @Tracks.processAck c _ now ack htracks (fun h => absurd h (by decide)) with
      hsame | ⟨hall, heq⟩ | ⟨-, hpart, hsame⟩
    · rw [hsame]
      exact ⟨.inr htracks, rfl⟩
    · have hstay : ackState now { c with sndUna := ack, txOutstanding := false, retries := 0 } =
          { c with sndUna := ack, txOutstanding := false, retries := 0 } := by
        rcases hstate with hstate | hstate <;> simp [ackState, hstate]
      rw [heq, hstay]
      exact ⟨.inl ⟨rfl, hall⟩, rfl⟩
    · exact ⟨.inr hpart, hsame⟩

lemma processAck_fin (h : Tracks c (flagFin ||| flagAck)) (hnil : c.txBuffer.bytes = []) :
    processAck now c ack = c ∨ ack = c.sndNxt ∧ processAck now c ack =
      ackState now { c with sndUna := ack, txOutstanding := false, retries := 0 } := by
  rcases @Tracks.processAck c _ now ack h (fun _ => ⟨hnil, by decide⟩) with
    hsame | hall | ⟨hflags, -⟩
  · exact .inl hsame
  · exact .inr hall
  · exact absurd hflags (by decide)

lemma SlotOk.receiveAck {sent : List Sent} {s : Segment} (h : SlotOk ⟨c, sent⟩ received)
    (hsyn : c.state ≠ .synSent) (hs : s ∈ received) (hhonest : Honest ⟨c, sent⟩ s) :
    SlotOk ⟨receiveAck now c s, sent⟩ received ∧
      (c.state = .lastAck → (receiveAck now c s).state = .closed →
        FinAcked ⟨receiveAck now c s, sent⟩ received) := by
  unfold Tcp.receiveAck
  cases hflag : hasFlag s.flags flagAck with
  | false =>
    refine ⟨h, fun hlast hclosed => ?_⟩
    simp only [Bool.false_eq_true, if_false, hlast] at hclosed
    cases hclosed
  | true =>
    rw [if_pos rfl]
    have hfin (hslot : Tracks c (flagFin ||| flagAck)) {c' : Connection}
        (hall : s.acknowledgment = c.sndNxt) (hnxt : c'.sndNxt = c.sndNxt)
        (huna : c'.sndUna = s.acknowledgment) : FinAcked ⟨c', sent⟩ received := by
      have hend : s.acknowledgment = c.slotEnd := by
        rw [hall, hslot.sndNxt, ← hslot.txFlags, Connection.slotEnd]
      have hleft : FinSent ⟨c, sent⟩ := .of_slotSent hslot (hhonest hflag hslot.outstanding hend)
      exact ⟨hleft.keeps hnxt (List.Subset.refl _), by rw [huna, hall, hnxt],
        s, hs, hflag, by rw [hall, hnxt]⟩
    unfold SlotOk at h ⊢
    cases hstate : c.state <;> simp only [hstate] at h
    case synSent => exact absurd hstate hsyn
    case closed =>
      simp only [processAck_closed hstate]
      exact ⟨trivial, State.noConfusion⟩
    case established =>
      obtain ⟨hslot, hsame⟩ := @processAck_data c now s.acknowledgment h (.inl hstate)
      simp only [hsame, hstate]
      exact ⟨hslot, State.noConfusion⟩
    case closeWait =>
      obtain ⟨hslot, hsame⟩ := @processAck_data c now s.acknowledgment h (.inr hstate)
      simp only [hsame, hstate]
      exact ⟨hslot, State.noConfusion⟩
    case finWait2 | timeWait =>
      simp only [h.1.processAck, hstate]
      exact ⟨h, State.noConfusion⟩
    case finWait1 =>
      refine ⟨?_, State.noConfusion⟩
      rcases @processAck_fin c now s.acknowledgment h.1 h.2 with hsame | ⟨hall, heq⟩
      · simp only [hsame, hstate]
        exact h
      · rw [heq]
        simp only [ackState, hstate, Bool.not_false, true_and, if_true]
        cases c.peerFinSeen with
        | true | false => exact ⟨⟨rfl, hall⟩, hfin h.1 hall rfl rfl⟩
    case lastAck =>
      rcases @processAck_fin c now s.acknowledgment h.1 h.2 with hsame | ⟨hall, heq⟩
      · simp only [hsame, hstate]
        exact ⟨h, fun _ => State.noConfusion⟩
      · rw [heq]
        simp only [ackState, hstate, Bool.not_false, reduceCtorEq, false_and, if_false, true_and,
          if_true]
        exact fun _ _ => hfin h.1 hall rfl rfl

lemma seqBefore_self (n : Seq) : seqBefore n n = false := by
  simp [seqBefore]

lemma processAck_syn (h : Tracks c flagSyn) (hnil : c.txBuffer.bytes = [])
    (hall : ack = c.sndNxt) : processAck now c ack =
      ackState now { c with sndUna := ack, txOutstanding := false, retries := 0 } := by
  subst hall
  have hnxt : c.sndNxt = c.sndUna + 1#32 := by
    rw [h.sndNxt, h.sndUna, hnil]
    rfl
  have hbefore : seqBefore c.sndNxt c.sndUna = false := by
    rw [Bool.eq_false_iff, Ne, seqBefore_iff, hnxt]
    bv_omega
  have hne : c.sndNxt ≠ c.sndUna := by bv_omega
  have hend : c.txSequence + sequenceSpace c.txFlags c.txBuffer.bytes.length = c.sndNxt := by
    rw [h.txFlags, h.sndNxt]
  unfold Tcp.processAck
  rw [hbefore, seqBefore_self, if_neg (by decide), if_neg hne]
  simp only [ackOutstanding, h.outstanding, if_true, hend, seqBefore_self, Bool.not_false]

lemma SlotOk.receiveSegment {sent : List Sent} {s : Segment} (h : SlotOk ⟨c, sent⟩ received)
    (hhonest : Honest ⟨c, sent⟩ s) (hrst : c.state = .lastAck → hasFlag s.flags flagRst = false) :
    SlotOk ⟨receiveSegment now c s, sent⟩ (received ++ [s]) ∧
      (c.state = .lastAck → (receiveSegment now c s).state = .closed →
        FinAcked ⟨receiveSegment now c s, sent⟩ (received ++ [s])) := by
  have hwindow : SlotOk ⟨{ c with remoteWindow := s.window }, sent⟩ (received ++ [s]) :=
    h.keeps rfl ⟨rfl, rfl, rfl, rfl, rfl, rfl⟩ (List.Subset.refl _) (List.subset_append_left _ _)
  unfold Tcp.receiveSegment
  dsimp only
  split
  · next hflag =>
    refine ⟨slotOk_closed rfl, fun hlast => ?_⟩
    rw [hrst hlast] at hflag
    cases hflag
  split
  · next hsyn =>
    refine ⟨?_, fun hlast => by rw [hsyn] at hlast; cases hlast⟩
    split
    · exact hwindow
    · next hack =>
      have hall : s.acknowledgment = c.sndNxt := by
        by_contra hne
        exact hack (.inr hne)
      obtain ⟨htracks, hnil⟩ := (slotOk_synSent hsyn).mp hwindow
      have heq := @processAck_syn { c with remoteWindow := s.window } now _ htracks hnil hall
      refine (slotOk_established rfl).mpr (.inl ?_)
      rw [heq]
      exact ⟨by simp [ackState, hsyn], by simp [ackState, hsyn, hall]⟩
  · next hsyn =>
    obtain ⟨hack, hlast⟩ := @SlotOk.receiveAck _ now (received ++ [s]) sent s hwindow hsyn
      (by simp) hhonest
    refine ⟨hack.receiveData s, fun hfrom hclosed => ?_⟩
    obtain ⟨hslot, hsame | ⟨-, hto⟩ | ⟨-, hto⟩⟩ := @receiveData_slot
      (Tcp.receiveAck now { c with remoteWindow := s.window } s) now s
    · exact (hlast hfrom (hsame.symm.trans hclosed)).keeps hslot (List.Subset.refl _)
        (List.Subset.refl _)
    all_goals
      rw [hto] at hclosed
      cases hclosed

def Waits (env : Env) (c : Connection) (start limit : Ticks) : Prop :=
  if env.now - start < limit then Serves env c else c.status ≠ .success

def TurnServes (env : Env) (c : Connection) : Pc → Prop
  | .idle _ => True
  | .connecting start => Waits env c (start.getD env.now) waitTicks
  | .sending _ start => Waits env c (start.getD env.now) waitTicks
  | .closing start => Waits env c (start.getD env.now) closeTicks

section

variable (h : k.conn.state = .lastAck)

include h

lemma waitFor_lastAck {start : Ticks}
    (hwaits : Waits env k.conn start waitTicks) : (waitFor env k .established start).1 ≠ .ready ∧
      (waitFor env k .established start).2.conn.state = .lastAck := by
  unfold Waits at hwaits
  unfold Tcp.waitFor
  split
  · next htime =>
    rw [if_pos htime] at hwaits
    have hstate := service_lastAck h hwaits
    rw [if_neg (by rw [hstate]; exact State.noConfusion)]
    split
    all_goals exact ⟨Wait.noConfusion, hstate⟩
  · next htime =>
    rw [if_neg htime] at hwaits
    refine ⟨Wait.noConfusion, ?_⟩
    simp only [Tcp.timeOut, if_neg hwaits, h]

lemma turn_lastAck {pc : Pc}
    (hserves : TurnServes env k.conn pc) : (turn env k pc).2.conn.state = .lastAck := by
  cases pc with
  | idle result => exact h
  | connecting start =>
    obtain ⟨-, hstate⟩ := waitFor_lastAck h hserves
    simp only [Tcp.turn]
    split <;> next heq => rwa [heq] at hstate
  | sending rest start =>
    obtain ⟨hready, hstate⟩ := waitFor_lastAck h hserves
    simp only [Tcp.turn]
    split
    · next heq =>
      rw [heq] at hready
      exact absurd rfl hready
    · next heq => rwa [heq] at hstate
    · next heq => rwa [heq] at hstate
  | closing start =>
    simp only [TurnServes, Waits] at hserves
    simp only [Tcp.turn]
    split
    · next htime =>
      rw [if_pos htime] at hserves
      have hstate := service_lastAck h hserves
      rw [if_neg (by rw [hstate]; exact State.noConfusion)]
      exact hstate
    · next htime =>
      rw [if_neg htime] at hserves
      simp only [Tcp.timeOut, if_neg hserves, h]

lemma tcpClose_lastAck (hserves : Serves env k.conn) :
    (Tcp.tcpClose env k).2.conn.state = .lastAck := by
  have hstate := service_lastAck h hserves
  simp only [Tcp.tcpClose, hstate]

lemma tcpSend_lastAck (data : List UInt8) : (Tcp.tcpSend env k data).2.conn.state = .lastAck := by
  unfold Tcp.tcpSend
  rw [if_pos (by rw [h]; exact State.noConfusion)]
  exact h

end

end

def Connecting (s : Sys) : Prop :=
  ∃ env c target i, tcpConnect env c target = .ok s.socket ∧ s.received = [] ∧ s.returned = [] ∧
    s.callers = Function.update (fun _ => .idle none) i (.connecting none)

lemma SlotOk.connecting {s : Sys} (h : Connecting s) : SlotOk s.socket s.received := by
  obtain ⟨env, c, target, i, hconnect, -⟩ := h
  unfold tcpConnect at hconnect
  split at hconnect
  · cases hconnect
  split at hconnect
  · cases hconnect
  · have hsocket := Except.ok.inj hconnect
    rw [← hsocket]
    obtain ⟨htracks, hnil, hstate⟩ := @Quiet.sendTracked ⟨target.connection env.now, []⟩ flagSyn
      env ⟨rfl, rfl⟩ [] (Nat.zero_le _)
    exact (slotOk_synSent hstate).mpr ⟨htracks, hnil⟩

/-- The steps that close in order: `tcp_close` finds the slot free, no segment is
acknowledged before it has left, and nothing fails the connection in its last state. -/
def Orderly (env : Env) (s : Sys) : Act → Prop
  | .send _ _ => True
  | .close _ => CloseFree env s.socket ∧ (s.conn.state = .lastAck → Serves env s.conn)
  | .take _ _ => s.conn.state = .lastAck → Serves env s.conn
  | .turn i => s.conn.state = .lastAck → TurnServes env s.conn (s.callers i)
  | .receive device source destination packet =>
    ∀ segment, accepted env s.conn device source destination packet = some segment →
      Honest s.socket segment ∧ (s.conn.state = .lastAck → hasFlag segment.flags flagRst = false)

lemma SlotOk.step {s s' : Sys} (h : SlotOk s.socket s.received) (hstep : Sys.Step Orderly s s') :
    SlotOk s'.socket s'.received ∧
      (s.conn.state = .lastAck → s'.conn.state = .closed → FinAcked s'.socket s'.received) := by
  obtain ⟨⟨env, act⟩, horderly, hstep⟩ := hstep
  have hstays {state : State} (h : s.conn.state = .lastAck → state = .lastAck)
      {P : Prop} : s.conn.state = .lastAck → state = .closed → P := by
    intro hlast hclosed
    rw [h hlast] at hclosed
    cases hclosed
  rcases Sys.step_cases hstep with ⟨i, data, rfl, rfl⟩ | ⟨i, rfl, rfl⟩ | ⟨i, capacity, rfl, rfl⟩ |
    ⟨i, rfl, rfl⟩ | ⟨device, source, destination, packet, rfl, hreceive⟩
  · exact ⟨h.tcpSend data, hstays fun hlast => tcpSend_lastAck hlast data⟩
  · exact ⟨h.tcpClose horderly.1, hstays fun hlast => tcpClose_lastAck hlast (horderly.2 hlast)⟩
  · exact ⟨h.service.keeps rfl ⟨rfl, rfl, rfl, rfl, rfl, rfl⟩ (List.Subset.refl _)
      (List.Subset.refl _), hstays fun hlast => service_lastAck hlast (horderly hlast)⟩
  · exact ⟨h.turn _, hstays fun hlast => turn_lastAck hlast (horderly hlast)⟩
  · rcases hreceive with ⟨-, rfl⟩ | ⟨segment, haccepted, rfl⟩
    · exact ⟨h, hstays id⟩
    · obtain ⟨hhonest, hrst⟩ := horderly segment haccepted
      exact SlotOk.receiveSegment h hhonest hrst

def EntersClosing (s s' : Sys) : Prop :=
  (s.conn.state ≠ .finWait2 ∧ s'.conn.state = .finWait2) ∨
  (s.conn.state ≠ .timeWait ∧ s'.conn.state = .timeWait) ∨
  (s.conn.state = .lastAck ∧ s'.conn.state = .closed)

lemma SlotOk.run {s0 s : Sys} (hstart : Connecting s0)
    (hrun : Relation.ReflTransGen (Sys.Step Orderly) s0 s) : SlotOk s.socket s.received := by
  induction hrun with
  | refl => exact .connecting hstart
  | tail _ hstep ih => exact (ih.step hstep).1

/-- In an orderly run these states are entered only after a FIN has left and has been
acknowledged, with everything sent before it. -/
theorem closing_after_fin_acked {s₀ s s' : Sys} (hstart : Connecting s₀)
    (hrun : Relation.ReflTransGen (Sys.Step Orderly) s₀ s) (hstep : Sys.Step Orderly s s')
    (henters : EntersClosing s s') : FinAcked s'.socket s'.received := by
  obtain ⟨hslot, hlast⟩ := (SlotOk.run hstart hrun).step hstep
  unfold SlotOk at hslot
  rcases henters with ⟨-, hstate⟩ | ⟨-, hstate⟩ | ⟨hfrom, hclosed⟩
  · change s'.socket.conn.state = _ at hstate
    rw [hstate] at hslot
    exact hslot.2
  · change s'.socket.conn.state = _ at hstate
    rw [hstate] at hslot
    exact hslot.2
  · exact hlast hfrom hclosed

def exampleTarget : Target where
  device := 1
  generation := 1
  address := ⟨10, 0, 0, 1⟩
  configured := true
  remote := ⟨10, 0, 0, 2⟩
  remotePort := 80#16
  portSequence := 0#16
  isnSequence := 0#32

def exampleEnv : Env := ⟨0#64, fun _ _ => true, fun _ => true⟩

def connectingSys : Sys where
  socket := (sendTracked exampleEnv ⟨exampleTarget.connection 0#64, []⟩ flagSyn []).2
  callers := Function.update (fun _ => .idle none) 0 (.connecting none)
  received := []
  returned := []

def peerPacket (sequence : Seq) (flags : BitVec 8) (acknowledged : Seq) : Act :=
  .receive 1 exampleTarget.remote exampleTarget.address
    (buildPacket exampleTarget.remote exampleTarget.address {
      sourcePort := exampleTarget.remotePort
      destinationPort := exampleTarget.localPort
      sequence, flags
      acknowledgment := exampleTarget.iss 0#64 + acknowledged
      window := 1000#16
      payload := [] })

def closeBehindData : List Act :=
  [peerPacket 100#32 (flagSyn ||| flagAck) 1#32, .turn 0, .send 0 [7], .turn 0, .close 0]

def dataAck : Act := peerPacket 101#32 flagAck 2#32

def afterRun (acts : List Act) : Sys :=
  (connectingSys.run (acts.map (exampleEnv, ·))).getD connectingSys

lemma run_afterRun {acts : List Act}
    (h : (connectingSys.run (acts.map (exampleEnv, ·))).isSome = true) :
    connectingSys.run (acts.map (exampleEnv, ·)) = some (afterRun acts) := by
  rw [afterRun, ← Option.get_eq_getD (h := h), Option.some_get]

lemma connecting_connectingSys : Connecting connectingSys :=
  ⟨exampleEnv, .zero, exampleTarget, 0, rfl, rfl, rfl, rfl⟩

instance (k : Socket) : Decidable (SlotSent k) := inferInstanceAs (Decidable (∃ r ∈ k.sent, _))

instance (k : Socket) (s : Segment) : Decidable (Honest k s) :=
  inferInstanceAs (Decidable (_ → _ → _ → _))

instance (env : Env) (k : Socket) : Decidable (CloseFree env k) :=
  inferInstanceAs (Decidable (_ → _))

instance (env : Env) (c : Connection) : Decidable (Serves env c) :=
  inferInstanceAs (Decidable (_ ∧ ¬ (_ ∧ _ ∧ _)))

instance (env : Env) (c : Connection) (start limit : Ticks) : Decidable (Waits env c start limit) :=
  inferInstanceAs (Decidable
    (if env.now - start < limit then Serves env c else c.status ≠ .success))

instance (env : Env) (c : Connection) : (pc : Pc) → Decidable (TurnServes env c pc)
  | .idle _ => .isTrue trivial
  | .connecting start => inferInstanceAs (Decidable (Waits env c (start.getD env.now) waitTicks))
  | .sending _ start => inferInstanceAs (Decidable (Waits env c (start.getD env.now) waitTicks))
  | .closing start => inferInstanceAs (Decidable (Waits env c (start.getD env.now) closeTicks))

instance (env : Env) (s : Sys) : (act : Act) → Decidable (Orderly env s act)
  | .send _ _ => .isTrue trivial
  | .close _ => inferInstanceAs (Decidable (CloseFree env s.socket ∧
      (s.conn.state = .lastAck → Serves env s.conn)))
  | .take _ _ => inferInstanceAs (Decidable (s.conn.state = .lastAck → Serves env s.conn))
  | .turn i => inferInstanceAs
      (Decidable (s.conn.state = .lastAck → TurnServes env s.conn (s.callers i)))
  | .receive device source destination packet => inferInstanceAs
      (Decidable (∀ segment ∈ accepted env s.conn device source destination packet,
        Honest s.socket segment ∧
          (s.conn.state = .lastAck → hasFlag segment.flags flagRst = false)))

/-- The acknowledgment of the byte, an honest one, moves the connection on although no FIN
was ever sent: `tcp_close` did not find the slot free. -/
theorem finWait2_without_fin : ∃ s s', Connecting connectingSys ∧
      Relation.ReflTransGen (Sys.Step fun _ _ _ => True) connectingSys s ∧
      Sys.Step Orderly s s' ∧ EntersClosing s s' ∧ ¬ FinAcked s'.socket s'.received := by
  have hstep : ((afterRun closeBehindData).step exampleEnv dataAck).map (·.conn.state) =
      some .finWait2 := by decide +kernel
  obtain ⟨s', hs', hstate⟩ := Option.map_eq_some_iff.mp hstep
  refine ⟨afterRun closeBehindData, s', connecting_connectingSys,
    steps_of_runBy (by decide +kernel) (run_afterRun (by decide +kernel)),
    ⟨(exampleEnv, dataAck), by decide +kernel, hs'⟩, .inl ⟨by decide +kernel, hstate⟩, ?_⟩
  rintro ⟨⟨r, hr, -, hfin, -⟩, -⟩
  have hnone : ∀ s' ∈ (afterRun closeBehindData).step exampleEnv dataAck,
      ∀ r ∈ s'.socket.sent, hasFlag r.flags flagFin = false := by
    decide +kernel
  rw [hnone s' hs' r hr] at hfin
  cases hfin

def closeAfterData : List Act :=
  [peerPacket 100#32 (flagSyn ||| flagAck) 1#32, .turn 0, .send 0 [7], .turn 0, dataAck, .close 0]

def finAck : Act := peerPacket 101#32 flagAck 3#32

/-- A close after the data were acknowledged. -/
theorem closing_after_fin_acked_once :
    ∃ s', Sys.Step Orderly (afterRun closeAfterData) s' ∧ s'.conn.state = .finWait2 ∧
      FinAcked s'.socket s'.received := by
  have hstep : ((afterRun closeAfterData).step exampleEnv finAck).map (·.conn.state) =
      some .finWait2 := by decide +kernel
  obtain ⟨s', hs', hstate⟩ := Option.map_eq_some_iff.mp hstep
  have hlast : Sys.Step Orderly (afterRun closeAfterData) s' :=
    ⟨(exampleEnv, finAck), by decide +kernel, hs'⟩
  exact ⟨s', hlast, hstate, closing_after_fin_acked connecting_connectingSys
    (steps_of_runBy (by decide +kernel) (run_afterRun (by decide +kernel))) hlast
    (.inl ⟨by decide +kernel, hstate⟩)⟩

end Mangrove.Net.Tcp
