import Mangrove.Lib.Steps
import Mangrove.Net.Wire

/-! The one TCP connection of the kernel, and its receive side: what callers were given and
the buffer are a beginning of the peer's stream. Data outside the window does nothing. -/

namespace Mangrove.Net.Tcp

/-- The states of a connection. There is no listening side, and no CLOSING. -/
inductive State where
  | closed
  | synSent
  | established
  | finWait1
  | finWait2
  | closeWait
  | lastAck
  | timeWait
deriving DecidableEq

/-- Why a connection is as it is, for its callers. -/
inductive Status where
  | success
  | timeout
  | reset
  | unreachable
  | invalidState
  | bufferFull
  | closed
  | busy
  | invalid
deriving DecidableEq

/-- A ring buffer, as the bytes in it. -/
structure Buffer (capacity : Nat) where
  bytes : List UInt8
  bounded : bytes.length ≤ capacity

namespace Buffer

variable {capacity : Nat}

def empty : Buffer capacity := ⟨[], Nat.zero_le _⟩

def drop (b : Buffer capacity) (n : Nat) : Buffer capacity :=
  ⟨b.bytes.drop n, by rw [List.length_drop]; exact Nat.le_trans (Nat.sub_le _ _) b.bounded⟩

def push (b : Buffer capacity) (data : List UInt8)
    (h : data.length ≤ capacity - b.bytes.length) : Buffer capacity :=
  ⟨b.bytes ++ data, by have := b.bounded; rw [List.length_append]; omega⟩

end Buffer

abbrev Ticks := BitVec 64

def rxCapacity : Nat := 4096

def rtoTicks : Ticks := 1000#64

def timeWaitTicks : Ticks := 1000#64

def maxRetries : Nat := 3

/-- The initial sequence number is kept in `iss` by the source but not read again.
The device pointer `0` stands for none. -/
structure Connection where
  inUse : Bool
  device : Nat
  deviceGeneration : Nat
  localAddress : Ipv4
  remoteAddress : Ipv4
  localPort : BitVec 16
  remotePort : BitVec 16
  state : State
  status : Status
  sndUna : Seq
  sndNxt : Seq
  rcvNxt : Seq
  remoteWindow : BitVec 16
  receiveBuffer : Buffer rxCapacity
  txBuffer : Buffer mss
  txSequence : Seq
  txFlags : BitVec 8
  txOutstanding : Bool
  retransmitDeadline : Ticks
  retries : Nat
  peerFinSeen : Bool
  timeWaitDeadline : Ticks
  ackQueued : Bool

def Connection.zero : Connection where
  inUse := false
  device := 0
  deviceGeneration := 0
  localAddress := ⟨0, 0, 0, 0⟩
  remoteAddress := ⟨0, 0, 0, 0⟩
  localPort := 0#16
  remotePort := 0#16
  state := .closed
  status := .success
  sndUna := 0#32
  sndNxt := 0#32
  rcvNxt := 0#32
  remoteWindow := 0#16
  receiveBuffer := .empty
  txBuffer := .empty
  txSequence := 0#32
  txFlags := 0#8
  txOutstanding := false
  retransmitDeadline := 0#64
  retries := 0
  peerFinSeen := false
  timeWaitDeadline := 0#64
  ackQueued := false

/-- What answers to the connection: the clock, whether a device is still the same, and whether it
takes a packet. -/
structure Env where
  now : Ticks
  current : Nat → Nat → Bool
  transmits : List UInt8 → Bool

/-- A segment that left. -/
structure Sent where
  sequence : Seq
  acknowledgment : Seq
  flags : BitVec 8
  payload : List UInt8
  taken : Bool

/-- A connection, and what it has sent. -/
structure Socket where
  conn : Connection
  sent : List Sent

def sequenceSpace (flags : BitVec 8) (length : Nat) : Seq :=
  BitVec.ofNat 32 length + (if hasFlag flags flagSyn then 1#32 else 0#32) +
    if hasFlag flags flagFin then 1#32 else 0#32

def sendRaw (env : Env) (k : Socket) (sequence acknowledgment : Seq) (flags : BitVec 8)
    (payload : List UInt8) : Bool × Socket :=
  let c := k.conn
  let packet := buildPacket c.localAddress c.remoteAddress {
    sourcePort := c.localPort
    destinationPort := c.remotePort
    sequence, acknowledgment, flags
    window := BitVec.ofNat 16 rxCapacity
    payload }
  let taken := c.device ≠ 0 && env.current c.device c.deviceGeneration &&
    decide (payload.length ≤ mss) && env.transmits packet
  (taken, { k with sent := k.sent ++ [{ sequence, acknowledgment, flags, payload, taken }] })

def track (now : Ticks) (c : Connection) (sequence : Seq) (flags : BitVec 8)
    (payload : Buffer mss) : Connection :=
  { c with
    txSequence := sequence
    txFlags := flags
    txBuffer := payload
    txOutstanding := true
    retries := 0
    retransmitDeadline := now + rtoTicks }

def sendTracked (env : Env) (k : Socket) (flags : BitVec 8) (payload : List UInt8) :
    Bool × Socket :=
  if h : k.conn.txOutstanding ∨ mss < payload.length then (false, k)
  else
    let sequence := k.conn.sndNxt
    let c := track env.now k.conn sequence flags ⟨payload, by omega⟩
    sendRaw env { k with conn := { c with sndNxt := sequence + sequenceSpace flags payload.length } }
      sequence c.rcvNxt flags payload

def fail (c : Connection) (status : Status) : Connection :=
  { c with status, state := .closed, txOutstanding := false, inUse := false }

/-- The part of `tcp_process_ack` about the segment that waits. -/
def ackOutstanding (now : Ticks) (c : Connection) (acknowledgment : Seq) : Connection :=
  if c.txOutstanding then
    if !seqBefore acknowledgment (c.txSequence + sequenceSpace c.txFlags c.txBuffer.bytes.length) then
      { c with txOutstanding := false, retries := 0 }
    else if !hasFlag c.txFlags (flagSyn ||| flagFin) && !seqBefore acknowledgment c.txSequence then
      let acknowledged := (acknowledgment - c.txSequence).toNat
      if acknowledged ≤ c.txBuffer.bytes.length then
        { c with
          txBuffer := c.txBuffer.drop acknowledged
          txSequence := acknowledgment
          retransmitDeadline := now + rtoTicks }
      else c
    else c
  else c

/-- The part of `tcp_process_ack` about the state. -/
def ackState (now : Ticks) (c : Connection) : Connection :=
  if c.state = .finWait1 ∧ !c.txOutstanding then
    if c.peerFinSeen then { c with state := .timeWait, timeWaitDeadline := now + timeWaitTicks }
    else { c with state := .finWait2 }
  else if c.state = .lastAck ∧ !c.txOutstanding then { c with state := .closed, inUse := false }
  else c

def processAck (now : Ticks) (c : Connection) (acknowledgment : Seq) : Connection :=
  if seqBefore acknowledgment c.sndUna || seqBefore c.sndNxt acknowledgment then c
  else if acknowledgment = c.sndUna then c
  else ackState now (ackOutstanding now { c with sndUna := acknowledgment } acknowledgment)

/-- The acknowledgment that `tcp_service` owes. -/
def serviceAck (env : Env) (k : Socket) : Socket :=
  if k.conn.ackQueued then
    let (taken, k) := sendRaw env { k with conn := { k.conn with ackQueued := false } }
      k.conn.sndNxt k.conn.rcvNxt flagAck []
    if taken then k else { k with conn := { k.conn with ackQueued := true } }
  else k

/-- The retransmission of `tcp_service`. -/
def serviceResend (env : Env) (k : Socket) : Socket :=
  if k.conn.txOutstanding ∧ k.conn.retransmitDeadline ≤ env.now then
    if maxRetries ≤ k.conn.retries then { k with conn := fail k.conn .timeout }
    else
      let (_, k) := sendRaw env k k.conn.txSequence k.conn.rcvNxt k.conn.txFlags
        k.conn.txBuffer.bytes
      { k with conn := { k.conn with
          retries := k.conn.retries + 1
          retransmitDeadline := env.now + rtoTicks } }
  else k

def service (env : Env) (k : Socket) : Socket :=
  if env.current k.conn.device k.conn.deviceGeneration = false then
    { k with conn := fail k.conn .closed }
  else
    let k := serviceAck env k
    if k.conn.state = .timeWait ∧ k.conn.timeWaitDeadline ≤ env.now then
      { k with conn := { k.conn with state := .closed, inUse := false } }
    else serviceResend env k

def tcpMatches (env : Env) (c : Connection) (device : Nat) (source destination : Ipv4)
    (s : Segment) : Bool :=
  c.inUse && c.device = device && env.current device c.deviceGeneration &&
    c.remoteAddress = source && c.localAddress = destination &&
    c.remotePort = s.sourcePort && c.localPort = s.destinationPort

def acceptFin (now : Ticks) (c : Connection) : Connection :=
  let c := { c with rcvNxt := c.rcvNxt + 1#32, peerFinSeen := true, ackQueued := true }
  match c.state with
  | .established => { c with state := .closeWait }
  | .finWait2 => { c with state := .timeWait, timeWaitDeadline := now + timeWaitTicks }
  | _ => c

def acceptPayload (now : Ticks) (c : Connection) (s : Segment) : Connection :=
  if s.sequence = c.rcvNxt then
    if h : rxCapacity - c.receiveBuffer.bytes.length < s.payload.length then
      { c with status := .bufferFull, ackQueued := true }
    else
      let c := { c with
        receiveBuffer := c.receiveBuffer.push s.payload (by omega)
        rcvNxt := c.rcvNxt + BitVec.ofNat 32 s.payload.length
        ackQueued := c.ackQueued || s.payload ≠ [] }
      if hasFlag s.flags flagFin then acceptFin now c else c
  else { c with ackQueued := true }

def receiveAck (now : Ticks) (c : Connection) (s : Segment) : Connection :=
  if hasFlag s.flags flagAck then processAck now c s.acknowledgment else c

def receiveData (now : Ticks) (c : Connection) (s : Segment) : Connection :=
  if c.state = .closed then c
  else if s.payload ≠ [] ∨ hasFlag s.flags flagFin then acceptPayload now c s
  else c

/-- The rest of `tcp_receive`, for a segment of this connection. -/
def receiveSegment (now : Ticks) (c : Connection) (s : Segment) : Connection :=
  let c := { c with remoteWindow := s.window }
  if hasFlag s.flags flagRst then fail c .reset
  else if c.state = .synSent then
    if s.flags &&& (flagSyn ||| flagAck) ≠ flagSyn ||| flagAck ∨ s.acknowledgment ≠ c.sndNxt then c
    else { processAck now c s.acknowledgment with
      rcvNxt := s.sequence + 1#32
      state := .established
      ackQueued := true }
  else receiveData now (receiveAck now c s) s

def accepted (env : Env) (c : Connection) (device : Nat) (source destination : Ipv4)
    (packet : List UInt8) : Option Segment :=
  if packet.length < headerMinSize then none
  else match parseSegment packet with
    | none => none
    | some s =>
      if tcpChecksum source destination packet ≠ read16 packet 16 then none
      else if tcpMatches env c device source destination s then some s
      else none

def tcpReceive (env : Env) (c : Connection) (device : Nat) (source destination : Ipv4)
    (packet : List UInt8) : Connection :=
  match accepted env c device source destination packet with
  | none => c
  | some s => receiveSegment env.now c s

def receiveBytes (env : Env) (k : Socket) (capacity : Nat) : List UInt8 × Socket :=
  let k := service env k
  let count := min k.conn.receiveBuffer.bytes.length capacity
  (k.conn.receiveBuffer.bytes.take count,
    { k with conn := { k.conn with receiveBuffer := k.conn.receiveBuffer.drop count } })

/-- Where a caller is: between calls, with the result of the last one, or before
the next round of the loop it waits in. `start` is set in the first round. -/
inductive Pc where
  | idle (result : Option Bool)
  | connecting (start : Option Ticks)
  | sending (rest : List UInt8) (start : Option Ticks)
  | closing (start : Option Ticks)
deriving DecidableEq

inductive Wait where
  | ready
  | failed
  | sleeps

def waitTicks : Ticks := rtoTicks * BitVec.ofNat 64 (maxRetries + 1)

def closeTicks : Ticks := rtoTicks * BitVec.ofNat 64 (maxRetries + 2)

def timeOut (c : Connection) : Connection :=
  if c.status = .success then fail c .timeout else c

/-- One round of `tcp_wait_for`. -/
def waitFor (env : Env) (k : Socket) (wanted : State) (start : Ticks) : Wait × Socket :=
  if env.now - start < waitTicks then
    let k := service env k
    if k.conn.state = wanted then (.ready, k)
    else if k.conn.status ≠ .success then (.failed, k)
    else (.sleeps, k)
  else (.failed, { k with conn := timeOut k.conn })

/-- The loop of `tcp_send` up to the next wait. -/
def sendLoop (env : Env) (k : Socket) (rest : List UInt8) : Pc × Socket :=
  if rest = [] then (.idle (some true), k)
  else if k.conn.remoteWindow = 0#16 then (.idle (some false), k)
  else
    let chunk := min (min rest.length mss) k.conn.remoteWindow.toNat
    match sendTracked env k (flagAck ||| flagPsh) (rest.take chunk) with
    | (false, k) => (.idle (some false), k)
    | (true, k) => (.sending (rest.drop chunk) none, k)

def tcpSend (env : Env) (k : Socket) (data : List UInt8) : Pc × Socket :=
  if k.conn.state ≠ .established then (.idle (some false), k) else sendLoop env k data

def sendFin (env : Env) (k : Socket) (state : State) : Socket :=
  (sendTracked env { k with conn := { k.conn with state } } (flagFin ||| flagAck) []).2

def closed (k : Socket) : Pc × Socket :=
  (.idle (some (k.conn.status = .success)), { k with conn := { k.conn with inUse := false } })

def tcpClose (env : Env) (k : Socket) : Pc × Socket :=
  let k := service env k
  match k.conn.state with
  | .established => (.closing none, sendFin env k .finWait1)
  | .closeWait => (.closing none, sendFin env k .lastAck)
  | .closed => closed k
  | .synSent => (.idle (some false), k)
  | _ => (.closing none, k)

def turn (env : Env) (k : Socket) : Pc → Pc × Socket
  | .idle result => (.idle result, k)
  | .connecting start =>
    match waitFor env k .established (start.getD env.now) with
    | (.ready, k) => (.idle (some true), k)
    | (.failed, k) => (.idle (some false), k)
    | (.sleeps, k) => (.connecting (some (start.getD env.now)), k)
  | .sending rest start =>
    match waitFor env k .established (start.getD env.now) with
    | (.ready, k) => sendLoop env k rest
    | (.failed, k) => (.idle (some false), k)
    | (.sleeps, k) => (.sending rest (some (start.getD env.now)), k)
  | .closing start =>
    if env.now - start.getD env.now < closeTicks then
      let k := service env k
      if k.conn.state = .closed then closed k else (.closing (some (start.getD env.now)), k)
    else (.idle (some false), { k with conn := timeOut k.conn })

structure Target where
  device : Nat
  generation : Nat
  address : Ipv4
  configured : Bool
  remote : Ipv4
  remotePort : BitVec 16
  portSequence : BitVec 16
  isnSequence : BitVec 32

def Target.localPort (t : Target) : BitVec 16 :=
  BitVec.ofNat 16 (49152 + (t.portSequence + 1#16).toNat % (65535 - 49152))

def Target.iss (t : Target) (now : Ticks) : Seq :=
  now.setWidth 32 ^^^ ((t.isnSequence + 1#32) * 0x9e3779b9#32) ^^^ (t.localPort.setWidth 32 <<< 16)

def Target.connection (t : Target) (now : Ticks) : Connection :=
  { Connection.zero with
    inUse := true
    device := t.device
    deviceGeneration := t.generation
    localAddress := t.address
    remoteAddress := t.remote
    localPort := t.localPort
    remotePort := t.remotePort
    sndUna := t.iss now
    sndNxt := t.iss now
    status := .success
    state := .synSent }

def tcpConnect (env : Env) (c : Connection) (t : Target) : Except Status Socket :=
  if t.device = 0 ∨ t.remotePort = 0#16 ∨ t.configured = false then .error .invalid
  else if c.inUse then .error .busy
  else .ok (sendTracked env ⟨t.connection env.now, []⟩ flagSyn []).2

/-- The segments received for the connection and the bytes handed to callers are
kept beside it. -/
structure Sys where
  socket : Socket
  callers : Nat → Pc
  received : List Segment
  returned : List UInt8

/-- One step of a caller, or one packet from the network. -/
inductive Act where
  | send (i : Nat) (data : List UInt8)
  | close (i : Nat)
  | take (i : Nat) (capacity : Nat)
  | turn (i : Nat)
  | receive (device : Nat) (source destination : Ipv4) (packet : List UInt8)
deriving DecidableEq

namespace Sys

variable {env : Env} {s s' : Sys}

def conn (s : Sys) : Connection := s.socket.conn

def finish (s : Sys) (i : Nat) (result : Pc × Socket) : Sys :=
  { s with callers := Function.update s.callers i result.1, socket := result.2 }

def step (env : Env) (s : Sys) : Act → Option Sys
  | .send i data =>
    match s.callers i with
    | .idle _ => some (s.finish i (tcpSend env s.socket data))
    | _ => none
  | .close i =>
    match s.callers i with
    | .idle _ => some (s.finish i (tcpClose env s.socket))
    | _ => none
  | .take i capacity =>
    match s.callers i with
    | .idle _ =>
      let (bytes, socket) := receiveBytes env s.socket capacity
      some { s with socket, returned := s.returned ++ bytes }
    | _ => none
  | .turn i => some (s.finish i (turn env s.socket (s.callers i)))
  | .receive device source destination packet =>
    match accepted env s.conn device source destination packet with
    | none => some s
    | some segment => some { s with
        socket := { s.socket with conn := receiveSegment env.now s.conn segment }
        received := s.received ++ [segment] }

/-- A step in some environment, if `cond` allows it there. -/
abbrev Step (cond : Env → Sys → Act → Prop) : Sys → Sys → Prop :=
  StepBy (fun s (act : Env × Act) => s.step act.1 act.2) fun s act => cond act.1 s act.2

abbrev run : Sys → List (Env × Act) → Option Sys := runBy fun s act => s.step act.1 act.2

lemma step_cases {act : Act} (h : s.step env act = some s') :
    (∃ i data, act = .send i data ∧ s' = s.finish i (tcpSend env s.socket data)) ∨
    (∃ i, act = .close i ∧ s' = s.finish i (tcpClose env s.socket)) ∨
    (∃ i capacity, act = .take i capacity ∧ s' = { s with
      socket := (receiveBytes env s.socket capacity).2
      returned := s.returned ++ (receiveBytes env s.socket capacity).1 }) ∨
    (∃ i, act = .turn i ∧ s' = s.finish i (Tcp.turn env s.socket (s.callers i))) ∨
    (∃ device source destination packet, act = .receive device source destination packet ∧
      (accepted env s.conn device source destination packet = none ∧ s' = s ∨
        ∃ segment, accepted env s.conn device source destination packet = some segment ∧
          s' = { s with
            socket := { s.socket with conn := receiveSegment env.now s.conn segment }
            received := s.received ++ [segment] })) := by
  cases act with
  | send i data =>
    simp only [step] at h
    split at h
    · exact .inl ⟨i, data, rfl, (Option.some.inj h).symm⟩
    · cases h
  | close i =>
    simp only [step] at h
    split at h
    · exact .inr (.inl ⟨i, rfl, (Option.some.inj h).symm⟩)
    · cases h
  | take i capacity =>
    simp only [step] at h
    split at h
    · exact .inr (.inr (.inl ⟨i, capacity, rfl, (Option.some.inj h).symm⟩))
    · cases h
  | turn i => exact .inr (.inr (.inr (.inl ⟨i, rfl, (Option.some.inj h).symm⟩)))
  | receive device source destination packet =>
    refine .inr (.inr (.inr (.inr ⟨device, source, destination, packet, rfl, ?_⟩)))
    simp only [step] at h
    split at h
    · exact .inl ⟨‹_›, (Option.some.inj h).symm⟩
    · exact .inr ⟨_, ‹_›, (Option.some.inj h).symm⟩

end Sys

lemma accepted_parse {env : Env} {c : Connection} {device : Nat} {source destination : Ipv4}
    {packet : List UInt8} {segment : Segment}
    (h : accepted env c device source destination packet = some segment) :
    parseSegment packet = some segment := by
  unfold accepted at h
  split at h
  · cases h
  split at h
  · cases h
  · next hparse =>
    split at h
    · cases h
    · split at h
      · rw [hparse, h]
      · cases h

lemma accepted_buildPacket {env : Env} {c : Connection} {device : Nat}
    {source destination : Ipv4} {segment : Segment}
    (h : tcpMatches env c device source destination segment = true) :
    accepted env c device source destination (buildPacket source destination segment) =
      some segment := by
  have hlength : ¬ (buildPacket source destination segment).length < headerMinSize := by
    intro hshort
    have hparse := parseSegment_buildPacket source destination segment
    rw [parseSegment, if_pos hshort] at hparse
    cases hparse
  rw [accepted, if_neg hlength, parseSegment_buildPacket]
  dsimp only
  rw [tcpChecksum_buildPacket, if_neg (fun h => h rfl), if_pos h]

/-- What was received, and what may still be, is as before. -/
structure KeepsReceived (c c' : Connection) : Prop where
  rcvNxt : c'.rcvNxt = c.rcvNxt
  receiveBuffer : c'.receiveBuffer = c.receiveBuffer
  peerFinSeen : c'.peerFinSeen = c.peerFinSeen
  synchronised : c.state ≠ .synSent → c'.state ≠ .synSent

namespace KeepsReceived

variable {c c' c'' : Connection} {env : Env} {k : Socket} {now : Ticks}

lemma refl (c : Connection) : KeepsReceived c c := ⟨rfl, rfl, rfl, id⟩

lemma trans (h : KeepsReceived c c') (h' : KeepsReceived c' c'') : KeepsReceived c c'' :=
  ⟨h'.rcvNxt.trans h.rcvNxt, h'.receiveBuffer.trans h.receiveBuffer,
    h'.peerFinSeen.trans h.peerFinSeen, fun hs => h'.synchronised (h.synchronised hs)⟩

lemma fail (status : Status) : KeepsReceived c (fail c status) :=
  ⟨rfl, rfl, rfl, fun _ => State.noConfusion⟩

lemma timeOut : KeepsReceived c (timeOut c) := by
  unfold Tcp.timeOut
  split
  · exact fail _
  · exact refl _

lemma ackOutstanding (acknowledgment : Seq) :
    KeepsReceived c (ackOutstanding now c acknowledgment) := by
  unfold Tcp.ackOutstanding
  dsimp only
  repeat' split
  all_goals exact ⟨rfl, rfl, rfl, id⟩

lemma ackState : KeepsReceived c (ackState now c) := by
  unfold Tcp.ackState
  repeat' split
  · exact ⟨rfl, rfl, rfl, fun _ => State.noConfusion⟩
  · exact ⟨rfl, rfl, rfl, fun _ => State.noConfusion⟩
  · exact ⟨rfl, rfl, rfl, fun _ => State.noConfusion⟩
  · exact refl _

lemma processAck (acknowledgment : Seq) : KeepsReceived c (processAck now c acknowledgment) := by
  unfold Tcp.processAck
  split
  · exact refl _
  split
  · exact refl _
  · have hack := @ackOutstanding { c with sndUna := acknowledgment } now acknowledgment
    have hset : KeepsReceived c { c with sndUna := acknowledgment } := ⟨rfl, rfl, rfl, id⟩
    exact (hset.trans hack).trans ackState

lemma serviceAck : KeepsReceived k.conn (serviceAck env k).conn := by
  unfold Tcp.serviceAck
  split
  · dsimp only
    split
    · exact ⟨rfl, rfl, rfl, id⟩
    · exact ⟨rfl, rfl, rfl, id⟩
  · exact refl _

lemma serviceResend : KeepsReceived k.conn (serviceResend env k).conn := by
  unfold Tcp.serviceResend
  split
  · split
    · exact fail _
    · exact ⟨rfl, rfl, rfl, id⟩
  · exact refl _

lemma service : KeepsReceived k.conn (service env k).conn := by
  unfold Tcp.service
  split
  · exact fail _
  · dsimp only
    split
    · exact ⟨serviceAck.rcvNxt, serviceAck.receiveBuffer, serviceAck.peerFinSeen,
        fun _ => State.noConfusion⟩
    · exact serviceAck.trans serviceResend

lemma sendTracked (flags : BitVec 8) (payload : List UInt8) :
    KeepsReceived k.conn (sendTracked env k flags payload).2.conn := by
  unfold Tcp.sendTracked
  split
  · exact refl _
  · exact ⟨rfl, rfl, rfl, id⟩

lemma sendLoop (rest : List UInt8) : KeepsReceived k.conn (sendLoop env k rest).2.conn := by
  unfold Tcp.sendLoop
  split
  · exact refl _
  split
  · exact refl _
  dsimp only
  have hsent := @sendTracked env k (flagAck ||| flagPsh)
    (rest.take (min (min rest.length mss) k.conn.remoteWindow.toNat))
  split
  · next heq => rwa [heq] at hsent
  · next heq => rwa [heq] at hsent

lemma tcpSend (data : List UInt8) : KeepsReceived k.conn (tcpSend env k data).2.conn := by
  unfold Tcp.tcpSend
  split
  · exact refl _
  · exact sendLoop data

lemma sendFin {state : State} (hstate : state ≠ .synSent) :
    KeepsReceived k.conn (sendFin env k state).conn := by
  have hsent := @sendTracked env { k with conn := { k.conn with state } } (flagFin ||| flagAck) []
  exact (⟨rfl, rfl, rfl, fun _ => hstate⟩ : KeepsReceived k.conn { k.conn with state }).trans hsent

lemma tcpClose : KeepsReceived k.conn (tcpClose env k).2.conn := by
  unfold Tcp.tcpClose
  dsimp only
  split
  · exact service.trans (sendFin State.noConfusion)
  · exact service.trans (sendFin State.noConfusion)
  · exact service.trans ⟨rfl, rfl, rfl, id⟩
  · exact service
  · exact service

lemma waitFor (wanted : State) (start : Ticks) :
    KeepsReceived k.conn (waitFor env k wanted start).2.conn := by
  unfold Tcp.waitFor
  split
  · dsimp only
    repeat' split
    all_goals exact service
  · exact timeOut

lemma turn (pc : Pc) : KeepsReceived k.conn (turn env k pc).2.conn := by
  cases pc with
  | idle result => exact refl _
  | connecting start =>
    have hwait := @waitFor env k .established (start.getD env.now)
    simp only [Tcp.turn]
    split <;> next heq => rwa [heq] at hwait
  | sending rest start =>
    have hwait := @waitFor env k .established (start.getD env.now)
    simp only [Tcp.turn]
    split
    · next heq =>
      rw [heq] at hwait
      exact hwait.trans (sendLoop rest)
    · next heq => rwa [heq] at hwait
    · next heq => rwa [heq] at hwait
  | closing start =>
    simp only [Tcp.turn]
    split
    · split
      · exact service.trans ⟨rfl, rfl, rfl, id⟩
      · exact service
    · exact timeOut

end KeepsReceived

/-- The bytes `returned` so far and the buffer begin the stream, and `rcv_nxt`
counts them. -/
structure Received (stream : List UInt8) (irs : Seq) (returned : List UInt8) (c : Connection) :
    Prop where
  synchronised : c.state ≠ .synSent
  begins : returned ++ c.receiveBuffer.bytes <+: stream
  rcvNxt : c.rcvNxt = irs + 1#32 + BitVec.ofNat 32 (returned ++ c.receiveBuffer.bytes).length +
    if c.peerFinSeen then 1#32 else 0#32
  atEnd : c.peerFinSeen → returned ++ c.receiveBuffer.bytes = stream

/-- A segment of the peer that sends `stream` after its initial sequence number. The
payload of a SYN starts one number later. -/
def FromStream (stream : List UInt8) (irs : Seq) (s : Segment) : Prop :=
  (s.payload = [] ∧ hasFlag s.flags flagFin = false) ∨
  (hasFlag s.flags flagSyn ∧ s.sequence = irs ∧ s.payload <+: stream) ∨
  ∃ offset, offset ≤ stream.length ∧ s.sequence = irs + 1#32 + BitVec.ofNat 32 offset ∧
    s.payload <+: stream.drop offset ∧
    (hasFlag s.flags flagFin → offset + s.payload.length = stream.length)

namespace Received

variable {stream returned : List UInt8} {irs : Seq} {c c' : Connection} {now : Ticks}
  {segment : Segment}

lemma keeps (h : Received stream irs returned c) (hc : KeepsReceived c c') :
    Received stream irs returned c' where
  synchronised := hc.synchronised h.synchronised
  begins := by rw [hc.receiveBuffer]; exact h.begins
  rcvNxt := by rw [hc.rcvNxt, hc.receiveBuffer, hc.peerFinSeen]; exact h.rcvNxt
  atEnd := by rw [hc.receiveBuffer, hc.peerFinSeen]; exact h.atEnd

lemma in_order (hstream : stream.length < 2 ^ 31) (h : Received stream irs returned c)
    (hfrom : FromStream stream irs segment)
    (hdata : segment.payload ≠ [] ∨ hasFlag segment.flags flagFin = true)
    (hseq : segment.sequence = c.rcvNxt) : c.peerFinSeen = false ∧
      segment.payload <+: stream.drop (returned ++ c.receiveBuffer.bytes).length ∧
      (hasFlag segment.flags flagFin → (returned ++ c.receiveBuffer.bytes).length +
        segment.payload.length = stream.length) := by
  have hle := h.begins.length_le
  have hrcv := h.rcvNxt
  rw [← hseq] at hrcv
  rcases hfrom with ⟨hnil, hfin⟩ | ⟨-, hirs, -⟩ | ⟨offset, hoffset, hat, hpayload, hfin⟩
  · rcases hdata with hdata | hdata
    · exact absurd hnil hdata
    · rw [hfin] at hdata
      cases hdata
  · exfalso
    rw [hirs] at hrcv
    generalize (returned ++ c.receiveBuffer.bytes).length = n at hle hrcv
    split at hrcv <;> bv_omega
  · rw [hat] at hrcv
    have hseen : c.peerFinSeen = false := by
      cases hseen : c.peerFinSeen with
      | false => rfl
      | true =>
        exfalso
        have hend := congrArg List.length (h.atEnd hseen)
        rw [hseen, hend, if_pos rfl] at hrcv
        generalize stream.length = n at hstream hoffset hrcv
        bv_omega
    have hn : offset = (returned ++ c.receiveBuffer.bytes).length := by
      rw [hseen] at hrcv
      generalize (returned ++ c.receiveBuffer.bytes).length = n at hle hrcv ⊢
      simp only [Bool.false_eq_true, if_false] at hrcv
      bv_omega
    rw [← hn]
    exact ⟨hseen, hpayload, hfin⟩

lemma acceptFin (h : Received stream irs returned c) (hseen : c.peerFinSeen = false)
    (hend : returned ++ c.receiveBuffer.bytes = stream) :
    Received stream irs returned (acceptFin now c) := by
  have hrcv := h.rcvNxt
  rw [hseen] at hrcv
  simp only [Bool.false_eq_true, if_false, BitVec.add_zero] at hrcv
  unfold Tcp.acceptFin
  dsimp only
  split
  · exact ⟨State.noConfusion, h.begins, by simp only [hrcv, if_true], fun _ => hend⟩
  · exact ⟨State.noConfusion, h.begins, by simp only [hrcv, if_true], fun _ => hend⟩
  · exact ⟨h.synchronised, h.begins, by simp only [hrcv, if_true], fun _ => hend⟩

lemma push (h : Received stream irs returned c) (hseen : c.peerFinSeen = false)
    {data : List UInt8} (hdata : data <+: stream.drop (returned ++ c.receiveBuffer.bytes).length)
    (hroom : data.length ≤ rxCapacity - c.receiveBuffer.bytes.length) (queued : Bool) :
    Received stream irs returned { c with
      receiveBuffer := c.receiveBuffer.push data hroom
      rcvNxt := c.rcvNxt + BitVec.ofNat 32 data.length
      ackQueued := queued } where
  synchronised := h.synchronised
  begins := by
    obtain ⟨tail, htail⟩ := h.begins
    rw [← htail, List.drop_left] at hdata
    rw [← htail, Buffer.push, ← List.append_assoc]
    exact (List.prefix_append_right_inj _).mpr hdata
  rcvNxt := by
    have hrcv := h.rcvNxt
    simp only [hseen, Bool.false_eq_true, if_false, BitVec.add_zero] at hrcv ⊢
    rw [hrcv, BitVec.add_assoc, ← BitVec.ofNat_add]
    simp only [Buffer.push, List.length_append, Nat.add_assoc]
  atEnd := fun hfin => by
    rw [hseen] at hfin
    cases hfin

lemma acceptPayload (hstream : stream.length < 2 ^ 31) (h : Received stream irs returned c)
    (hfrom : FromStream stream irs segment)
    (hdata : segment.payload ≠ [] ∨ hasFlag segment.flags flagFin = true) :
    Received stream irs returned (acceptPayload now c segment) := by
  unfold Tcp.acceptPayload
  by_cases hseq : segment.sequence = c.rcvNxt
  · obtain ⟨hseen, hpayload, hfin⟩ := h.in_order hstream hfrom hdata hseq
    rw [if_pos hseq]
    split
    · exact h.keeps ⟨rfl, rfl, rfl, id⟩
    · next hroom =>
      have hpush := h.push hseen hpayload (by omega) (c.ackQueued || segment.payload ≠ [])
      dsimp only
      split
      · next hflag =>
        refine hpush.acceptFin hseen ?_
        refine hpush.begins.eq_of_length ?_
        have hend := hfin hflag
        simp only [Buffer.push, List.length_append] at hend ⊢
        omega
      · exact hpush
  · rw [if_neg hseq]
    exact h.keeps ⟨rfl, rfl, rfl, id⟩

lemma receiveSegment (hstream : stream.length < 2 ^ 31) (h : Received stream irs returned c)
    (hfrom : FromStream stream irs segment) :
    Received stream irs returned (receiveSegment now c segment) := by
  have hwindow : Received stream irs returned { c with remoteWindow := segment.window } :=
    h.keeps ⟨rfl, rfl, rfl, id⟩
  unfold Tcp.receiveSegment
  dsimp only
  split
  · exact hwindow.keeps (.fail _)
  rw [if_neg h.synchronised]
  have hack : Received stream irs returned
      (receiveAck now { c with remoteWindow := segment.window } segment) := by
    unfold receiveAck
    split
    · exact hwindow.keeps (.processAck _)
    · exact hwindow
  unfold receiveData
  split
  · exact hack
  split
  · next hdata => exact hack.acceptPayload hstream hfrom hdata
  · exact hack

lemma receiveBytes {env : Env} {k : Socket} (h : Received stream irs returned k.conn)
    (capacity : Nat) : Received stream irs (returned ++ (receiveBytes env k capacity).1)
      (receiveBytes env k capacity).2.conn := by
  have hservice := h.keeps (@KeepsReceived.service env k)
  unfold Tcp.receiveBytes
  generalize service env k = k' at hservice
  dsimp only
  have hsame : returned ++ k'.conn.receiveBuffer.bytes.take
        (min k'.conn.receiveBuffer.bytes.length capacity) ++
      (k'.conn.receiveBuffer.drop (min k'.conn.receiveBuffer.bytes.length capacity)).bytes =
      returned ++ k'.conn.receiveBuffer.bytes := by
    rw [List.append_assoc, Buffer.drop, List.take_append_drop]
  exact ⟨hservice.synchronised, by rw [hsame]; exact hservice.begins,
    by rw [hsame]; exact hservice.rcvNxt, by rw [hsame]; exact hservice.atEnd⟩

end Received

/-- Every received segment is one of the peer that sends `stream`. -/
def Act.FromStream (stream : List UInt8) (irs : Seq) : Act → Prop
  | .receive _ _ _ packet => ∀ s, parseSegment packet = some s → Tcp.FromStream stream irs s
  | _ => True

lemma Received.step {stream : List UInt8} {irs : Seq} (hstream : stream.length < 2 ^ 31)
    {s s' : Sys} (h : Received stream irs s.returned s.conn)
    (hstep : Sys.Step (fun _ _ act => act.FromStream stream irs) s s') :
    Received stream irs s'.returned s'.conn := by
  obtain ⟨⟨env, act⟩, hfrom, hstep⟩ := hstep
  rcases Sys.step_cases hstep with ⟨i, data, rfl, rfl⟩ | ⟨i, rfl, rfl⟩ | ⟨i, capacity, rfl, rfl⟩ |
    ⟨i, rfl, rfl⟩ | ⟨device, source, destination, packet, rfl, hreceive⟩
  · exact h.keeps (.tcpSend data)
  · exact h.keeps .tcpClose
  · exact h.receiveBytes capacity
  · exact h.keeps (.turn _)
  · rcases hreceive with ⟨-, rfl⟩ | ⟨segment, haccepted, rfl⟩
    · exact h
    · exact h.receiveSegment hstream (hfrom segment (accepted_parse haccepted))

/-- Whatever segments of the stream arrive, and whatever the callers do, the bytes
returned begin the stream and `rcv_nxt` counts the accepted ones. -/
theorem returned_prefix_of_stream {stream : List UInt8} {irs : Seq} {s s' : Sys}
    (hstream : stream.length < 2 ^ 31) (hstart : Received stream irs s.returned s.conn)
    (hrun : Relation.ReflTransGen (Sys.Step fun _ _ act => act.FromStream stream irs) s s') :
    s'.returned <+: stream ∧
      s'.conn.rcvNxt = irs + 1#32 +
        BitVec.ofNat 32 (s'.returned ++ s'.conn.receiveBuffer.bytes).length +
        if s'.conn.peerFinSeen then 1#32 else 0#32 := by
  have h : Received stream irs s'.returned s'.conn := by
    induction hrun with
    | refl => exact hstart
    | tail _ hstep ih => exact ih.step hstream hstep
  exact ⟨(List.prefix_append _ _).trans h.begins, h.rcvNxt⟩

def workingEnv : Env := ⟨0#64, fun _ _ => true, fun _ => true⟩

def establishedConnection : Connection :=
  { Connection.zero with inUse := true, device := 1, state := .established, rcvNxt := 1#32 }

def helloSegment : Segment := ⟨0#16, 0#16, 1#32, 0#32, flagAck ||| flagFin, 100#16, [104, 105]⟩

def helloPacket : List UInt8 := buildPacket ⟨0, 0, 0, 0⟩ ⟨0, 0, 0, 0⟩ helloSegment

def helloSys : Sys := ⟨⟨establishedConnection, []⟩, fun _ => .idle none, [], []⟩

/-- The segment arrives twice, and one byte of it is fetched. -/
def helloRun : List (Env × Act) :=
  [(workingEnv, .receive 1 ⟨0, 0, 0, 0⟩ ⟨0, 0, 0, 0⟩ helloPacket), (workingEnv, .take 0 1),
    (workingEnv, .receive 1 ⟨0, 0, 0, 0⟩ ⟨0, 0, 0, 0⟩ helloPacket)]

def helloEnd : Sys := (helloSys.run helloRun).getD helloSys

/-- Two bytes and a FIN, one byte fetched, and the segment once more. -/
theorem returned_prefix_of_hello :
    helloEnd.returned = [104] ∧ helloEnd.received.length = 2 ∧
      helloEnd.returned <+: [104, 105] ∧ helloEnd.conn.rcvNxt = 0#32 + 1#32 +
        BitVec.ofNat 32 (helloEnd.returned ++ helloEnd.conn.receiveBuffer.bytes).length +
        if helloEnd.conn.peerFinSeen then 1#32 else 0#32 := by
  have hfrom : (Act.receive 1 ⟨0, 0, 0, 0⟩ ⟨0, 0, 0, 0⟩ helloPacket).FromStream [104, 105] 0#32 := by
    intro segment hparse
    rw [helloPacket, parseSegment_buildPacket] at hparse
    obtain rfl := Option.some.inj hparse
    exact .inr (.inr ⟨0, by decide, by decide, by decide, by decide⟩)
  have hsome : (helloSys.run helloRun).isSome = true := by decide +kernel
  have hrun : helloSys.run helloRun = some helloEnd := by
    rw [helloEnd, ← Option.get_eq_getD (h := hsome), Option.some_get]
  have hallowed : AllowedBy (fun s (act : Env × Act) => s.step act.1 act.2)
      (fun _ act => act.2.FromStream [104, 105] 0#32) helloSys helloRun := by
    unfold helloRun
    exact ⟨hfrom, fun _ _ => ⟨trivial, fun _ _ => ⟨hfrom, fun _ _ => trivial⟩⟩⟩
  exact ⟨by decide +kernel, by decide +kernel, returned_prefix_of_stream (by decide)
    ⟨by decide, by decide, by decide, by decide⟩ (steps_of_runBy hallowed hrun)⟩

def Unmoved (c c' : Connection) : Prop :=
  c'.state = c.state ∧ c'.status = c.status ∧ c'.receiveBuffer = c.receiveBuffer ∧
    c'.rcvNxt = c.rcvNxt

/-- A new acknowledgment after which nothing waits any more, while a FIN is on its way. -/
def EndsWait (c : Connection) (acknowledgment : Seq) : Prop :=
  (c.state = .finWait1 ∨ c.state = .lastAck) ∧ seqBefore acknowledgment c.sndUna = false ∧
    seqBefore c.sndNxt acknowledgment = false ∧ acknowledgment ≠ c.sndUna ∧
    (c.txOutstanding = true → seqBefore acknowledgment
      (c.txSequence + sequenceSpace c.txFlags c.txBuffer.bytes.length) = false)

variable {now : Ticks} {c : Connection} {s : Segment} {acknowledgment : Seq}

lemma ackState_state_iff : (ackState now c).state = c.state ↔
    ¬ ((c.state = .finWait1 ∨ c.state = .lastAck) ∧ c.txOutstanding = false) := by
  unfold ackState
  grind

lemma processAck_status : (processAck now c acknowledgment).status = c.status := by
  unfold processAck ackState ackOutstanding
  grind

lemma processAck_state_iff :
    (processAck now c acknowledgment).state = c.state ↔ ¬ EndsWait c acknowledgment := by
  have hiff := @ackState_state_iff now
    (ackOutstanding now { c with sndUna := acknowledgment } acknowledgment)
  have hacked : (ackOutstanding now { c with sndUna := acknowledgment } acknowledgment).state =
      c.state ∧ (ackOutstanding now { c with sndUna := acknowledgment }
        acknowledgment).txOutstanding = (c.txOutstanding && seqBefore acknowledgment
          (c.txSequence + sequenceSpace c.txFlags c.txBuffer.bytes.length)) := by
    unfold ackOutstanding
    grind
  rw [hacked.1, hacked.2] at hiff
  unfold processAck EndsWait
  split
  · grind
  split
  · grind
  · rw [hiff]
    grind

lemma receiveData_unmoved (h : s.sequence ≠ c.rcvNxt) : Unmoved c (receiveData now c s) := by
  unfold receiveData acceptPayload
  rw [if_neg h]
  split
  · exact ⟨rfl, rfl, rfl, rfl⟩
  split
  all_goals exact ⟨rfl, rfl, rfl, rfl⟩

lemma receiveRest_unmoved_iff (h : s.sequence ≠ c.rcvNxt) :
    Unmoved c (receiveData now (receiveAck now c s) s) ↔
      ¬ (hasFlag s.flags flagAck = true ∧ EndsWait c s.acknowledgment) := by
  unfold receiveAck
  split
  · next hack =>
    have hkeeps := @KeepsReceived.processAck c now s.acknowledgment
    obtain ⟨hstate, hstatus, hbuffer, hnext⟩ :=
      @receiveData_unmoved now (processAck now c s.acknowledgment) s (hkeeps.rcvNxt ▸ h)
    simp only [hack, true_and, ← @processAck_state_iff now, Unmoved, hstate, hstatus, hbuffer, hnext,
      processAck_status, hkeeps.receiveBuffer, hkeeps.rcvNxt, and_true]
  · next hack => exact iff_of_true (receiveData_unmoved h) fun hboth => hack hboth.1

/-- A segment outside the window leaves the connection alone exactly if it is no reset and
acknowledges no FIN. -/
theorem outside_unmoved_iff {env : Env} {device : Nat} {source destination : Ipv4}
    {packet : List UInt8} (hs : accepted env c device source destination packet = some s)
    (hclosed : c.state ≠ .closed) (hsyn : c.state ≠ .synSent) (window : Nat) (hpos : 0 < window)
    (houtside : window ≤ (s.sequence - c.rcvNxt).toNat) :
    Unmoved c (tcpReceive env c device source destination packet) ↔
      hasFlag s.flags flagRst = false ∧
        ¬ (hasFlag s.flags flagAck = true ∧ EndsWait c s.acknowledgment) := by
  have hne : s.sequence ≠ c.rcvNxt := by
    intro heq
    rw [heq, BitVec.sub_self, BitVec.toNat_zero] at houtside
    omega
  simp only [tcpReceive, hs, receiveSegment, if_neg hsyn]
  cases hrst : hasFlag s.flags flagRst with
  | true => exact iff_of_false (fun h => hclosed h.1.symm) fun h => Bool.noConfusion h.1
  | false =>
    have hrest := @receiveRest_unmoved_iff env.now { c with remoteWindow := s.window } s hne
    exact hrest.trans ⟨fun h => ⟨rfl, h⟩, And.right⟩

def strayData : Segment := ⟨0#16, 0#16, 5000#32, 0#32, flagAck ||| flagFin, 100#16, [104, 105]⟩

/-- Data outside of the window. -/
theorem outside_unmoved_data : Unmoved establishedConnection
    (tcpReceive workingEnv establishedConnection 1 ⟨0, 0, 0, 0⟩ ⟨0, 0, 0, 0⟩
      (buildPacket ⟨0, 0, 0, 0⟩ ⟨0, 0, 0, 0⟩ strayData)) :=
  (outside_unmoved_iff (accepted_buildPacket (by decide)) (by decide) (by decide) rxCapacity
    (by decide) (by decide)).mpr ⟨by decide, fun h => by simpa [establishedConnection] using h.2.1⟩

/-- A reset outside of the window closes the connection. -/
theorem outside_reset_closes :
    (tcpReceive workingEnv establishedConnection 1 ⟨0, 0, 0, 0⟩ ⟨0, 0, 0, 0⟩
      (buildPacket ⟨0, 0, 0, 0⟩ ⟨0, 0, 0, 0⟩ { strayData with flags := flagRst })).state = .closed ∧
    rxCapacity ≤ (strayData.sequence - establishedConnection.rcvNxt).toNat := by
  rw [tcpReceive, accepted_buildPacket (by decide)]
  decide

end Mangrove.Net.Tcp
