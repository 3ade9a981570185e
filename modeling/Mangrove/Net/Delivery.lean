import Mangrove.Net.Close

/-! Sending. A call of `tcp_send` cuts its data into segments that go through the
one slot of the connection. -/

namespace Mangrove.Net.Tcp

/-- The segments that left carry the first `n` bytes of the data, some of them more than once. -/
inductive Carries (data : List UInt8) (first : Seq) : List Sent → Nat → Prop
  | nil : Carries data first [] 0
  | other {log : List Sent} {n : Nat} {r : Sent} (h : Carries data first log n)
      (hr : r.taken = false ∨ r.payload = []) : Carries data first (log ++ [r]) n
  | fresh {log : List Sent} {n : Nat} {r : Sent} (h : Carries data first log n)
      (htaken : r.taken = true) (hseq : r.sequence = first + BitVec.ofNat 32 n) (hpayload : r.payload <+: data.drop n) :
      Carries data first (log ++ [r]) (n + r.payload.length)
  | again {log : List Sent} {n m : Nat} {r : Sent} (h : Carries data first log n)
      (hm : m + r.payload.length ≤ n) (hseq : r.sequence = first + BitVec.ofNat 32 m)
      (hpayload : r.payload <+: data.drop m) : Carries data first (log ++ [r]) n

def SlotHolds (data : List UInt8) (first : Seq) (n m : Nat) (c : Connection) : Prop :=
  m ≤ n ∧ c.txSequence = first + BitVec.ofNat 32 m ∧ c.txBuffer.bytes = (data.take n).drop m

/-- After `n` bytes of the data were taken: they left, or wait in the slot. -/
structure InFlight (data : List UInt8) (first : Seq) (before : List Sent) (n : Nat)
    (k : Socket) : Prop where
  synchronised : k.conn.state ≠ .synSent
  le : n ≤ data.length
  sndNxt : k.conn.sndNxt = first + BitVec.ofNat 32 n
  carries : ∃ log, k.sent = before ++ log ∧ Carries data first log n
  slot : k.conn.txOutstanding = true → k.conn.txFlags = flagAck ||| flagPsh ∧
    ∃ m, SlotHolds data first n m k.conn

def Accounted (data : List UInt8) (first : Seq) (before : List Sent) (k : Socket) : Prop :=
  ∃ n m, n ≤ data.length ∧ k.conn.sndNxt = first + BitVec.ofNat 32 n ∧
    (∃ log, k.sent = before ++ log ∧ Carries data first log m) ∧
    (m = n ∨ k.conn.txOutstanding = true ∧ SlotHolds data first n m k.conn)

def Working (c : Connection) (env : Env) : Prop :=
  env.current c.device c.deviceGeneration = true ∧ ∀ packet, env.transmits packet = true

section

variable {data : List UInt8} {first : Seq} {before : List Sent} {n : Nat} {k k' : Socket}
  {c' : Connection} {env : Env} {now : Ticks}

section

variable (h : InFlight data first before n k)

include h

lemma InFlight.accounted : Accounted data first before k :=
  ⟨n, n, h.le, h.sndNxt, h.carries, .inl rfl⟩

lemma InFlight.keeps (hstate : c'.state ≠ .synSent)
    (hnxt : c'.sndNxt = k.conn.sndNxt) (hslot : c'.txOutstanding = true → KeepsSlot k.conn c') :
    InFlight data first before n ⟨c', k.sent⟩ where
  synchronised := hstate
  le := h.le
  sndNxt := hnxt.trans h.sndNxt
  carries := h.carries
  slot := fun hout => by
    have hkeeps := hslot hout
    obtain ⟨hflags, m, hm, hseq, hbuffer⟩ := h.slot (hkeeps.outstanding.symm.trans hout)
    exact ⟨hkeeps.txFlags.trans hflags, m, hm, hkeeps.txSequence.trans hseq,
      by rw [hkeeps.txBuffer]; exact hbuffer⟩

lemma InFlight.fail (status : Status) :
    InFlight data first before n { k with conn := fail k.conn status } :=
  h.keeps State.noConfusion rfl fun hout => by cases hout

lemma InFlight.timeOut :
    InFlight data first before n { k with conn := timeOut k.conn } := by
  unfold Tcp.timeOut
  split
  · exact h.fail _
  · exact h

lemma InFlight.record {r : Sent} (hr : (r.taken = false ∨ r.payload = []) ∨
      ∃ m, m + r.payload.length ≤ n ∧ r.sequence = first + BitVec.ofNat 32 m ∧
        r.payload <+: data.drop m) (hsent : k'.sent = k.sent ++ [r]) (hconn : k'.conn = k.conn) :
    InFlight data first before n k' := by
  obtain ⟨log, hlog, hcarries⟩ := h.carries
  refine ⟨by rw [hconn]; exact h.synchronised, h.le, by rw [hconn]; exact h.sndNxt,
    ⟨log ++ [r], by rw [hsent, hlog, List.append_assoc], ?_⟩, by rw [hconn]; exact h.slot⟩
  rcases hr with hr | ⟨m, hm, hseq, hpayload⟩
  · exact hcarries.other hr
  · exact hcarries.again hm hseq hpayload

lemma InFlight.serviceAck : InFlight data first before n (serviceAck env k) := by
  unfold Tcp.serviceAck
  split
  · have hqueued (queued : Bool) :
        InFlight data first before n ⟨{ k.conn with ackQueued := queued }, k.sent⟩ :=
      h.keeps h.synchronised rfl fun _ => ⟨rfl, rfl, rfl, rfl, rfl, rfl⟩
    dsimp only
    split
    · exact (hqueued false).record (.inl (.inr rfl)) rfl rfl
    · exact (hqueued true).record (.inl (.inr rfl)) rfl rfl
  · exact h

end

lemma InFlight.serviceResend (h : InFlight data first before n k) :
    InFlight data first before n (serviceResend env k) := by
  unfold Tcp.serviceResend
  split
  · next hdue =>
    split
    · exact h.fail _
    · obtain ⟨-, m, hm, hseq, hbuffer⟩ := h.slot hdue.1
      have hlen : m + k.conn.txBuffer.bytes.length ≤ n := by
        rw [hbuffer, List.length_drop, List.length_take]
        omega
      have hpayload : k.conn.txBuffer.bytes <+: data.drop m := by
        rw [hbuffer]
        exact (List.take_prefix n data).drop m
      have hretried : InFlight data first before n ⟨{ k.conn with
          retries := k.conn.retries + 1
          retransmitDeadline := env.now + rtoTicks }, k.sent⟩ :=
        h.keeps h.synchronised rfl fun _ => ⟨rfl, rfl, rfl, rfl, rfl, rfl⟩
      exact hretried.record (.inr ⟨m, hlen, hseq, hpayload⟩) rfl rfl
  · exact h

lemma InFlight.service (h : InFlight data first before n k) :
    InFlight data first before n (service env k) := by
  unfold Tcp.service
  split
  · exact h.fail _
  dsimp only
  split
  · exact h.serviceAck.keeps State.noConfusion rfl fun _ => ⟨rfl, rfl, rfl, rfl, rfl, rfl⟩
  · exact h.serviceAck.serviceResend

lemma InFlight.ackOutstanding {c : Connection} {sent : List Sent}
    (h : InFlight data first before n ⟨c, sent⟩) (ack : Seq) :
    InFlight data first before n ⟨ackOutstanding now c ack, sent⟩ := by
  unfold Tcp.ackOutstanding
  split
  · next hout =>
    split
    · exact h.keeps h.synchronised rfl fun hout => by cases hout
    split
    · dsimp only
      split
      · next hlen =>
        obtain ⟨hflags, m, hm, hseq, hbuffer⟩ := h.slot hout
        refine ⟨h.synchronised, h.le, h.sndNxt, h.carries, fun _ => ⟨hflags,
          m + (ack - c.txSequence).toNat, ?_, ?_, ?_⟩⟩
        · change c.txBuffer.bytes = _ at hbuffer
          rw [hbuffer, List.length_drop, List.length_take] at hlen
          omega
        · change ack = _
          change c.txSequence = _ at hseq
          rw [BitVec.ofNat_add, BitVec.ofNat_toNat, BitVec.setWidth_eq, ← BitVec.add_assoc, ← hseq]
          bv_omega
        · simp only [Buffer.drop] at hbuffer ⊢
          rw [hbuffer, List.drop_drop]
      · exact h
    · exact h
  · exact h

lemma InFlight.ackState {c : Connection} {sent : List Sent}
    (h : InFlight data first before n ⟨c, sent⟩) :
    InFlight data first before n ⟨ackState now c, sent⟩ := by
  unfold Tcp.ackState
  split
  · split
    all_goals exact h.keeps State.noConfusion rfl fun _ => ⟨rfl, rfl, rfl, rfl, rfl, rfl⟩
  split
  · exact h.keeps State.noConfusion rfl fun _ => ⟨rfl, rfl, rfl, rfl, rfl, rfl⟩
  · exact h

lemma InFlight.receiveAck {c : Connection} {sent : List Sent}
    (h : InFlight data first before n ⟨c, sent⟩) (s : Segment) :
    InFlight data first before n ⟨receiveAck now c s, sent⟩ := by
  unfold Tcp.receiveAck
  split
  · unfold processAck
    split
    · exact h
    split
    · exact h
    · have huna : InFlight data first before n ⟨{ c with sndUna := s.acknowledgment }, sent⟩ :=
        ⟨h.synchronised, h.le, h.sndNxt, h.carries, h.slot⟩
      exact (huna.ackOutstanding _).ackState
  · exact h

lemma InFlight.receiveSegment {c : Connection} {sent : List Sent}
    (h : InFlight data first before n ⟨c, sent⟩) (s : Segment) :
    InFlight data first before n ⟨receiveSegment now c s, sent⟩ := by
  have hwindow : InFlight data first before n ⟨{ c with remoteWindow := s.window }, sent⟩ :=
    h.keeps h.synchronised rfl fun _ => ⟨rfl, rfl, rfl, rfl, rfl, rfl⟩
  unfold Tcp.receiveSegment
  dsimp only
  split
  · exact hwindow.fail _
  rw [if_neg h.synchronised]
  have hack := @InFlight.receiveAck data first before n now _ sent hwindow s
  obtain ⟨hslot, hstate⟩ := @receiveData_slot
    (Tcp.receiveAck now { c with remoteWindow := s.window } s) now s
  refine hack.keeps ?_ hslot.sndNxt fun _ => hslot
  rcases hstate with hsame | ⟨-, hto⟩ | ⟨-, hto⟩
  · rw [hsame]
    exact hack.synchronised
  all_goals
    rw [hto]
    exact State.noConfusion

def Progress (data : List UInt8) (first : Seq) (before : List Sent) (k : Socket) : Pc → Prop
  | .idle (some true) => InFlight data first before data.length k
  | .idle (some false) => Accounted data first before k
  | .sending rest _ => ∃ n, rest = data.drop n ∧ InFlight data first before n k
  | _ => False

lemma sendTracked_free {flags : BitVec 8} {payload : List UInt8}
    (hfree : k.conn.txOutstanding = false) (hlen : payload.length ≤ mss) :
    ∃ taken, (Working k.conn env → k.conn.device ≠ 0 → taken = true) ∧
      sendTracked env k flags payload = (taken,
        ⟨{ track env.now k.conn k.conn.sndNxt flags ⟨payload, hlen⟩ with
            sndNxt := k.conn.sndNxt + sequenceSpace flags payload.length },
          k.sent ++ [⟨k.conn.sndNxt, k.conn.rcvNxt, flags, payload, taken⟩]⟩) := by
  unfold Tcp.sendTracked
  rw [dif_neg (by rw [hfree]; exact fun h => h.elim Bool.noConfusion (by omega))]
  refine ⟨_, fun hworking hdevice => ?_, rfl⟩
  simp [track, hworking.1, hworking.2, hdevice, hlen]

section

variable (h : InFlight data first before n k)

include h

lemma InFlight.sendTracked
    (hfree : k.conn.txOutstanding = false) {chunk : Nat} (hmss : chunk ≤ mss)
    (hchunk : chunk ≤ (data.drop n).length) :
    ∃ taken k', sendTracked env k (flagAck ||| flagPsh) ((data.drop n).take chunk) = (taken, k') ∧
      (taken = true → InFlight data first before (n + chunk) k') ∧
      Accounted data first before k' := by
  have hlen : ((data.drop n).take chunk).length = chunk := by
    rw [List.length_take]
    omega
  have hle := h.le
  rw [List.length_drop] at hchunk
  obtain ⟨log, hlog, hcarries⟩ := h.carries
  have hpayload : (data.drop n).take chunk = (data.take (n + chunk)).drop n := by
    rw [List.drop_take, Nat.add_sub_cancel_left]
  have hspace : k.conn.sndNxt +
      sequenceSpace (flagAck ||| flagPsh) ((data.drop n).take chunk).length =
      first + BitVec.ofNat 32 (n + chunk) := by
    rw [hlen, sequenceSpace_data (by decide), h.sndNxt, BitVec.add_assoc, BitVec.ofNat_add]
  obtain ⟨taken, -, heq⟩ := @sendTracked_free k env (flagAck ||| flagPsh)
    ((data.drop n).take chunk) hfree (by omega)
  refine ⟨taken, _, heq, fun htaken => ?_, ?_⟩
  · refine ⟨h.synchronised, by omega, hspace, ⟨log ++ [_], by rw [hlog, List.append_assoc], ?_⟩,
      fun _ => ⟨rfl, n, by omega, h.sndNxt, hpayload⟩⟩
    have hfresh := @Carries.fresh data first log n ⟨k.conn.sndNxt, k.conn.rcvNxt,
      flagAck ||| flagPsh, (data.drop n).take chunk, taken⟩ hcarries htaken h.sndNxt
      (List.take_prefix _ _)
    rwa [hlen] at hfresh
  · cases taken with
    | true =>
      refine ⟨n + chunk, n + chunk, by omega, hspace, ⟨log ++ [_], by rw [hlog, List.append_assoc],
        ?_⟩, .inl rfl⟩
      have hfresh := @Carries.fresh data first log n ⟨k.conn.sndNxt, k.conn.rcvNxt,
        flagAck ||| flagPsh, (data.drop n).take chunk, true⟩ hcarries rfl h.sndNxt
        (List.take_prefix _ _)
      rwa [hlen] at hfresh
    | false =>
      exact ⟨n + chunk, n, by omega, hspace,
        ⟨log ++ [_], by rw [hlog, List.append_assoc], hcarries.other (.inl rfl)⟩,
        .inr ⟨rfl, by omega, h.sndNxt, hpayload⟩⟩

lemma InFlight.sendLoop :
    Progress data first before (sendLoop env k (data.drop n)).2
      (sendLoop env k (data.drop n)).1 := by
  unfold Tcp.sendLoop
  split
  · next hnil =>
    have hn : n = data.length := by
      have := h.le
      rw [List.drop_eq_nil_iff] at hnil
      omega
    subst hn
    exact h
  split
  · exact h.accounted
  dsimp only
  cases hout : k.conn.txOutstanding with
  | true =>
    rw [sendTracked_outstanding hout]
    exact h.accounted
  | false =>
    obtain ⟨taken, k', heq, htaken, hfalse⟩ := @InFlight.sendTracked data first before n k env h
      hout (min (min (data.drop n).length mss) k.conn.remoteWindow.toNat) (by omega) (by omega)
    rw [heq]
    cases taken with
    | true => exact ⟨_, List.drop_drop, htaken rfl⟩
    | false => exact hfalse

lemma InFlight.waitFor (wanted : State) (start : Ticks) :
    InFlight data first before n (waitFor env k wanted start).2 := by
  unfold Tcp.waitFor
  split
  · dsimp only
    repeat' split
    all_goals exact h.service
  · exact h.timeOut

lemma InFlight.turn (start : Option Ticks) :
    Progress data first before (turn env k (.sending (data.drop n) start)).2
      (turn env k (.sending (data.drop n) start)).1 := by
  have hwait := @InFlight.waitFor data first before n k env h .established (start.getD env.now)
  simp only [Tcp.turn]
  split
  · next heq =>
    rw [heq] at hwait
    exact hwait.sendLoop
  · next heq =>
    rw [heq] at hwait
    exact hwait.accounted
  · next heq =>
    rw [heq] at hwait
    exact ⟨n, rfl, hwait⟩

end

end

/-- The states of a call of `tcp_send` up to its return, with the rounds it has made.
Segments arrive in between. -/
inductive During (cond : Env → Sys → Act → Prop) (i : Nat) (data : List UInt8) (s : Sys) :
    Nat → Sys → Prop
  | send {env : Env} {s' : Sys} (hcond : cond env s (.send i data))
      (hstep : s.step env (.send i data) = some s') : During cond i data s 0 s'
  | turn {env : Env} {rounds : Nat} {rest : List UInt8} {start : Option Ticks} {s₁ s' : Sys}
      (h : During cond i data s rounds s₁) (hcaller : s₁.callers i = .sending rest start)
      (hcond : cond env s₁ (.turn i)) (hstep : s₁.step env (.turn i) = some s') :
      During cond i data s (rounds + 1) s'
  | receive {env : Env} {rounds : Nat} {rest : List UInt8} {start : Option Ticks} {s₁ s' : Sys}
      {device : Nat} {source destination : Ipv4} {packet : List UInt8}
      (h : During cond i data s rounds s₁) (hcaller : s₁.callers i = .sending rest start)
      (hcond : cond env s₁ (.receive device source destination packet))
      (hstep : s₁.step env (.receive device source destination packet) = some s') :
      During cond i data s rounds s'

/-- A caller may send: the connection is established, with nothing outstanding. -/
structure Ready (s : Sys) (i : Nat) : Prop where
  idle : ∃ result, s.callers i = .idle result
  established : s.conn.state = .established
  free : s.conn.txOutstanding = false
  device : s.conn.device ≠ 0

section

variable {cond : Env → Sys → Act → Prop} {env : Env} {i rounds : Nat} {data : List UInt8}
  {s s₁ s' : Sys}

lemma Ready.inFlight (h : Ready s i) : InFlight data s.conn.sndNxt s.socket.sent 0 s.socket where
  synchronised := by
    rw [show s.socket.conn.state = .established from h.established]
    exact State.noConfusion
  le := Nat.zero_le _
  sndNxt := (BitVec.add_zero _).symm
  carries := ⟨[], (List.append_nil _).symm, .nil⟩
  slot := fun hout => by
    rw [show s.socket.conn.txOutstanding = false from h.free] at hout
    cases hout

lemma Ready.send (h : Ready s i) (hstep : s.step env (.send i data) = some s') :
    s' = s.finish i (sendLoop env s.socket data) := by
  obtain ⟨result, hidle⟩ := h.idle
  simp only [Sys.step, hidle, Option.some.injEq] at hstep
  rw [← hstep, tcpSend, if_neg (fun hne => hne h.established)]

lemma turn_step (hstep : s₁.step env (.turn i) = some s') :
    s' = s₁.finish i (Tcp.turn env s₁.socket (s₁.callers i)) :=
  (Option.some.inj hstep).symm

lemma receive_step {device : Nat} {source destination : Ipv4} {packet : List UInt8}
    (hstep : s₁.step env (.receive device source destination packet) = some s') :
    s'.callers = s₁.callers ∧ (s' = s₁ ∨ ∃ segment, parseSegment packet = some segment ∧
      s'.socket = ⟨receiveSegment env.now s₁.conn segment, s₁.socket.sent⟩) := by
  simp only [Sys.step] at hstep
  split at hstep
  · obtain rfl := Option.some.inj hstep
    exact ⟨rfl, .inl rfl⟩
  · next haccepted =>
    obtain rfl := Option.some.inj hstep
    exact ⟨rfl, .inr ⟨_, accepted_parse haccepted, rfl⟩⟩

lemma finish_callers (result : Pc × Socket) : (s.finish i result).callers i = result.1 := by
  simp [Sys.finish]

lemma During.progress (hready : Ready s i) (h : During cond i data s rounds s') :
    Progress data s.conn.sndNxt s.socket.sent s'.socket (s'.callers i) := by
  induction h with
  | send _ hstep =>
    rw [hready.send hstep, finish_callers]
    exact (@Ready.inFlight i data s hready).sendLoop
  | turn _ hcaller _ hstep ih =>
    rw [turn_step hstep, finish_callers, hcaller]
    rw [hcaller] at ih
    obtain ⟨n, rfl, hflight⟩ := ih
    exact hflight.turn _
  | receive _ hcaller _ hstep ih =>
    obtain ⟨hcallers, hsame | ⟨segment, -, hsocket⟩⟩ := receive_step hstep
    · rw [hsame]
      exact ih
    · rw [hcallers, hsocket, hcaller]
      rw [hcaller] at ih
      obtain ⟨n, hrest, hflight⟩ := ih
      exact ⟨n, hrest, hflight.receiveSegment segment⟩

def Cooperative (env : Env) (s : Sys) : Act → Prop
  | .receive _ _ _ packet => Working s.conn env ∧ ∀ segment, parseSegment packet = some segment →
      segment.window ≠ 0#16 ∧ hasFlag segment.flags flagRst = false ∧
        hasFlag segment.flags flagFin = false
  | _ => Working s.conn env

/-- After a bounded number of rounds the call has returned true, and its segments
carried the data. -/
def Delivers (s : Sys) (i : Nat) (data : List UInt8) : Prop :=
  ∃ bound, ∀ rounds s', During Cooperative i data s rounds s' →
    ((∃ rest start, s'.callers i = .sending rest start) ∧ rounds < bound) ∨
    (s'.callers i = .idle (some true) ∧
      ∃ log, s'.socket.sent = s.socket.sent ++ log ∧
        Carries data s.conn.sndNxt log data.length)

/-- An established connection that has not retransmitted what is in its slot. -/
structure Early (c : Connection) : Prop where
  established : c.state = .established
  retries : c.txOutstanding = true → c.retries = 0

lemma Early.ackOutstanding {c : Connection} {now : Ticks} (h : Early c) (ack : Seq) :
    Early (ackOutstanding now c ack) := by
  refine ⟨ackOutstanding_state.trans h.established, ?_⟩
  unfold Tcp.ackOutstanding
  dsimp only
  repeat' split
  all_goals first | exact h.retries | exact fun _ => rfl

lemma Early.receiveAck {c : Connection} {now : Ticks} (h : Early c) (segment : Segment) :
    Early (receiveAck now c segment) := by
  unfold Tcp.receiveAck
  split
  · unfold processAck
    split
    · exact h
    split
    · exact h
    · have huna : Early { c with sndUna := segment.acknowledgment } := ⟨h.established, h.retries⟩
      have hack := @Early.ackOutstanding _ now huna segment.acknowledgment
      simpa [ackState, hack.established] using hack
  · exact h

lemma Early.receiveSegment {c : Connection} {now : Ticks} {segment : Segment} (h : Early c)
    (hrst : hasFlag segment.flags flagRst = false) (hfin : hasFlag segment.flags flagFin = false) :
    Early (receiveSegment now c segment) := by
  have hwindow : Early { c with remoteWindow := segment.window } := ⟨h.established, h.retries⟩
  have hack := @Early.receiveAck _ now hwindow segment
  unfold Tcp.receiveSegment
  dsimp only
  rw [if_neg (by rw [hrst]; exact Bool.noConfusion),
    if_neg (by rw [h.established]; exact State.noConfusion)]
  generalize Tcp.receiveAck now { c with remoteWindow := segment.window } segment = c₁ at hack
  unfold receiveData acceptPayload
  split
  · exact hack
  split
  · split
    · split
      · exact ⟨hack.established, hack.retries⟩
      · dsimp only
        rw [hfin, if_neg Bool.noConfusion]
        exact ⟨hack.established, hack.retries⟩
    · exact ⟨hack.established, hack.retries⟩
  · exact hack

lemma Early.waitFor {k : Socket} (h : Early k.conn) (hworking : Working k.conn env) :
    waitFor env k .established env.now = (.ready, service env k) ∧
      (service env k).conn.state = .established := by
  have hserves : Serves env k.conn := by
    refine ⟨hworking.1, fun hdue => ?_⟩
    have hmax := hdue.2.2
    rw [h.retries hdue.1] at hmax
    exact absurd hmax (by decide)
  have hstate : (service env k).conn.state = .established :=
    (service_state (by rw [h.established]; exact State.noConfusion) hserves).trans h.established
  unfold Tcp.waitFor
  rw [if_pos (by rw [BitVec.sub_self]; decide)]
  dsimp only
  rw [if_pos hstate]
  exact ⟨rfl, hstate⟩

lemma sendLoop_working {k : Socket} (hworking : Working k.conn env) (hdevice : k.conn.device ≠ 0)
    (hfree : k.conn.txOutstanding = false) (hdata : data ≠ [])
    (hwindow : k.conn.remoteWindow ≠ 0#16) : ∃ k', sendLoop env k data =
        (.sending (data.drop (min (min data.length mss) k.conn.remoteWindow.toNat)) none, k') ∧
      k'.conn.state = k.conn.state ∧ k'.conn.txOutstanding = true ∧ k'.conn.retries = 0 ∧
      k'.conn.remoteWindow = k.conn.remoteWindow ∧ k'.conn.device = k.conn.device := by
  have hlen : (data.take (min (min data.length mss) k.conn.remoteWindow.toNat)).length ≤ mss := by
    rw [List.length_take]
    omega
  obtain ⟨taken, htaken, heq⟩ := @sendTracked_free k env (flagAck ||| flagPsh) _ hfree hlen
  obtain rfl := htaken hworking hdevice
  unfold sendLoop
  rw [if_neg hdata, if_neg hwindow]
  dsimp only
  rw [heq]
  exact ⟨_, rfl, rfl, rfl, rfl, rfl, rfl⟩

lemma sendLoop_outstanding {k : Socket} (hdata : data ≠ []) (hout : k.conn.txOutstanding = true) :
    sendLoop env k data = (.idle (some false), k) := by
  unfold sendLoop
  rw [if_neg hdata]
  split
  · rfl
  · dsimp only
    rw [sendTracked_outstanding hout]

lemma delivers_of_fits (hready : Ready s i)
    (hfits : data.length ≤ min mss s.conn.remoteWindow.toNat) : Delivers s i data := by
  refine ⟨1, fun rounds s' h => ?_⟩
  have hend (h' : During Cooperative i data s rounds s') (hidle : s'.callers i = .idle (some true)) :
      ∃ log, s'.socket.sent = s.socket.sent ++ log ∧ Carries data s.conn.sndNxt log data.length := by
    have hprogress := h'.progress hready
    rw [hidle] at hprogress
    exact hprogress.carries
  suffices hcase : (s'.callers i = .sending [] none ∧ Early s'.conn ∧ rounds = 0) ∨
      s'.callers i = .idle (some true) by
    rcases hcase with ⟨hcaller, -, hrounds⟩ | hidle
    · exact .inl ⟨⟨_, _, hcaller⟩, by omega⟩
    · exact .inr ⟨hidle, hend h hidle⟩
  clear hend
  induction h with
  | send hcond hstep =>
    rw [hready.send hstep, finish_callers]
    by_cases hdata : data = []
    · exact .inr (by simp [sendLoop, hdata])
    · have hwindow : s.socket.conn.remoteWindow ≠ 0#16 := by
        intro hzero
        rw [show s.conn.remoteWindow = 0#16 from hzero] at hfits
        simp at hfits
        exact hdata hfits
      obtain ⟨k', heq, hstate, -, hretries, -⟩ := @sendLoop_working _ data s.socket hcond
        hready.device hready.free hdata hwindow
      refine .inl ⟨?_, ⟨?_, fun _ => ?_⟩, rfl⟩
      · rw [heq, List.drop_eq_nil_of_le]
        change data.length ≤ min mss s.socket.conn.remoteWindow.toNat at hfits
        omega
      · simp only [Sys.finish, Sys.conn, heq, hstate]
        exact hready.established
      · simp only [Sys.finish, Sys.conn, heq, hretries]
  | turn _ hcaller hcond hstep ih =>
    rcases ih with ⟨hfirst, hearly, -⟩ | hidle
    · refine .inr ?_
      rw [turn_step hstep, finish_callers, hfirst]
      simp only [turn, Option.getD_none, (hearly.waitFor hcond).1]
      rfl
    · rw [hidle] at hcaller
      cases hcaller
  | receive _ hcaller hcond hstep ih =>
    obtain ⟨hcallers, hsame | ⟨segment, hparse, hsocket⟩⟩ := receive_step hstep
    · rw [hsame]
      exact ih
    · rw [hcallers]
      rcases ih with ⟨hfirst, hearly, hrounds⟩ | hidle
      · obtain ⟨-, hrst, hfin⟩ := hcond.2 segment hparse
        refine .inl ⟨hfirst, ?_, hrounds⟩
        rw [Sys.conn, hsocket]
        exact hearly.receiveSegment hrst hfin
      · exact .inr hidle

def readyEnv : Env := ⟨0#64, fun _ _ => true, fun _ => true⟩

lemma Delivers.not_false (h : Delivers s i data) (hduring : During Cooperative i data s rounds s') :
    s'.callers i ≠ .idle (some false) := by
  obtain ⟨bound, hbound⟩ := h
  intro hfalse
  rcases hbound _ _ hduring with ⟨⟨rest, start, hrest⟩, -⟩ | ⟨htrue, -⟩
  · rw [hfalse] at hrest
    cases hrest
  · rw [hfalse] at htrue
    cases htrue

lemma fits_of_delivers (hready : Ready s i) (h : Delivers s i data) :
    data.length ≤ min mss s.conn.remoteWindow.toNat := by
  by_contra hlong
  have hdata : data ≠ [] := by
    rintro rfl
    exact hlong (Nat.zero_le _)
  have hworking (c : Connection) : Working c readyEnv := ⟨rfl, fun _ => rfl⟩
  obtain ⟨result, hidle⟩ := hready.idle
  have hsend : s.step readyEnv (.send i data) =
      some (s.finish i (sendLoop readyEnv s.socket data)) := by
    simp only [Sys.step, hidle]
    rw [tcpSend, if_neg (fun hne => hne hready.established)]
  have hfirst : During Cooperative i data s 0 (s.finish i (sendLoop readyEnv s.socket data)) :=
    .send (hworking _) hsend
  by_cases hwindow : s.socket.conn.remoteWindow = 0#16
  · refine h.not_false hfirst ?_
    rw [finish_callers]
    simp [sendLoop, hdata, hwindow]
  · obtain ⟨k', heq, hstate, hout, hretries, -⟩ := @sendLoop_working readyEnv data s.socket
      (hworking _) hready.device hready.free hdata hwindow
    rw [heq] at hfirst
    have hrest : data.drop (min (min data.length mss) s.socket.conn.remoteWindow.toNat) ≠ [] := by
      rw [Ne, List.drop_eq_nil_iff]
      change ¬ data.length ≤ min mss s.socket.conn.remoteWindow.toNat at hlong
      omega
    obtain ⟨hwait, hservice⟩ := @Early.waitFor readyEnv k'
      ⟨hstate.trans hready.established, fun _ => hretries⟩ (hworking _)
    have hout' : (service readyEnv k').conn.txOutstanding = true := by
      rcases @service_slot k' readyEnv with hclosed | ⟨-, hslot, -⟩
      · rw [hservice] at hclosed
        cases hclosed
      · exact hslot.outstanding.trans hout
    refine h.not_false (.turn hfirst (finish_callers _) (hworking _) rfl) ?_
    rw [finish_callers, finish_callers]
    simp only [turn, Option.getD_none, Sys.finish, hwait, sendLoop_outstanding hrest hout']

end

/-- The data of a call are delivered exactly when they fit one segment. Whenever a call
returns false, the sequence numbers it used up are those of bytes that left or wait in
the slot. -/
theorem delivers_iff_fits {s : Sys} {i : Nat} {data : List UInt8} (hready : Ready s i) :
    (Delivers s i data ↔ data.length ≤ min mss s.conn.remoteWindow.toNat) ∧
      ∀ cond rounds s', During cond i data s rounds s' → s'.callers i = .idle (some false) →
        Accounted data s.conn.sndNxt s.socket.sent s'.socket := by
  refine ⟨⟨fits_of_delivers hready, delivers_of_fits hready⟩, fun cond rounds s' h hfalse => ?_⟩
  have hprogress := h.progress hready
  rw [hfalse] at hprogress
  exact hprogress

def narrowSys : Sys where
  socket := ⟨{ Connection.zero with
    inUse := true
    device := 1
    state := .established
    remoteWindow := 1#16 }, []⟩
  callers := fun _ => .idle none
  received := []
  returned := []

lemma ready_narrowSys : Ready narrowSys 0 := ⟨⟨none, rfl⟩, rfl, rfl, by decide⟩

/-- Two bytes do not fit and are not delivered. -/
theorem two_bytes_not_delivered :
    ∃ s', During Cooperative 0 [1, 2] narrowSys 1 s' ∧ s'.callers 0 = .idle (some false) := by
  have hworking (c : Connection) : Working c readyEnv := ⟨rfl, fun _ => rfl⟩
  exact ⟨_, .turn (.send (hworking _) rfl) rfl (hworking _) rfl, rfl⟩

def wideSys : Sys :=
  { narrowSys with socket := ⟨{ narrowSys.conn with remoteWindow := 4#16 }, []⟩ }

/-- Three bytes fit a window of four. -/
theorem three_bytes_delivered : Delivers wideSys 0 [1, 2, 3] :=
  (delivers_iff_fits (s := wideSys) ⟨⟨none, rfl⟩, rfl, rfl, by decide⟩).1.mpr (by decide)

end Mangrove.Net.Tcp
