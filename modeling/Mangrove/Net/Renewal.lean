import Mangrove.Bytes
import Mangrove.Lib.Steps
import Mangrove.Net.Udp

/-! The DHCP client and the times of a lease. The exchange ends when a refusal comes, but as
one that had an answer; that it was refused is looked for where it had none. -/

namespace Mangrove.Net.Dhcp

open Tcp

inductive Phase where
  | init
  | selecting
  | requesting
  | bound
  | renewing
  | rebinding
deriving DecidableEq

inductive Event where
  | none
  | offer
  | ack
  | nak
deriving DecidableEq

/-- A lease as the client collects it. -/
structure Lease where
  address : Ipv4
  netmask : Ipv4
  gateway : Ipv4
  dns : Ipv4
  server : Ipv4
  leaseSeconds : Nat
  renewalSeconds : Nat
  rebindingSeconds : Nat
  hasGateway : Bool
  hasDns : Bool
deriving DecidableEq

def zeroAddress : Ipv4 := ⟨0, 0, 0, 0⟩

def Lease.zero : Lease :=
  ⟨zeroAddress, zeroAddress, zeroAddress, zeroAddress, zeroAddress, 0, 0, 0, false, false⟩

/-- The state that `dhcp.c` keeps. -/
structure Client where
  device : Option Nat
  generation : Nat
  xid : BitVec 32
  phase : Phase
  offered : Ipv4
  lease : Lease
  event : Event
deriving DecidableEq

def Client.zero : Client := ⟨none, 0, 0, .init, zeroAddress, Lease.zero, .none⟩

/-- The network devices: which generation of each is there, and its address. -/
structure Devices where
  generation : Nat → Option Nat
  mac : Nat → List UInt8

def Devices.current (d : Devices) (device generation : Nat) : Bool :=
  generation ≠ 0 ∧ d.generation device = some generation

def optionPad : UInt8 := 0
def optionSubnetMask : UInt8 := 1
def optionRouter : UInt8 := 3
def optionDns : UInt8 := 6
def optionLeaseTime : UInt8 := 51
def optionMessageType : UInt8 := 53
def optionServerId : UInt8 := 54
def optionRenewalTime : UInt8 := 58
def optionRebindingTime : UInt8 := 59
def optionEnd : UInt8 := 255

/-- The value of the first option of the wanted type. Every turn takes a byte at
least, so the length bounds the number of turns. -/
def optionFindFrom (wanted : UInt8) : Nat → List UInt8 → Option (List UInt8)
  | 0, _ => none
  | _ + 1, [] => none
  | n + 1, type :: rest =>
    if type = optionPad then optionFindFrom wanted n rest
    else if type = optionEnd then none
    else match rest with
      | [] => none
      | size :: rest =>
        if rest.length < size.toNat then none
        else if type = wanted then some (rest.take size.toNat)
        else optionFindFrom wanted n (rest.drop size.toNat)

def optionFind (options : List UInt8) (wanted : UInt8) : Option (List UInt8) :=
  optionFindFrom wanted options.length options

def optionsValidFrom : Nat → List UInt8 → Bool
  | 0, _ => false
  | _ + 1, [] => false
  | n + 1, type :: rest =>
    if type = optionPad then optionsValidFrom n rest
    else if type = optionEnd then true
    else match rest with
      | [] => false
      | size :: rest =>
        if rest.length < size.toNat then false else optionsValidFrom n (rest.drop size.toNat)

def optionsValid (options : List UInt8) : Bool := optionsValidFrom options.length options

def optionSecondsFrom (wanted : UInt8) : Nat → List UInt8 → Option (Option Nat)
  | 0, _ => some none
  | _ + 1, [] => some none
  | n + 1, type :: rest =>
    if type = optionPad then optionSecondsFrom wanted n rest
    else if type = optionEnd then some none
    else match rest with
      | [] => none
      | size :: rest =>
        if rest.length < size.toNat then none
        else if type = wanted then if size ≠ 4 then none else some (some (read32 rest 0).toNat)
        else optionSecondsFrom wanted n (rest.drop size.toNat)

def optionSeconds (options : List UInt8) (wanted : UInt8) : Option (Option Nat) :=
  optionSecondsFrom wanted options.length options

def ipFrom (value : List UInt8) : Ipv4 :=
  ⟨value.getD 0 0, value.getD 1 0, value.getD 2 0, value.getD 3 0⟩

def octetBits (octet : UInt8) : List Bool :=
  [0x80, 0x40, 0x20, 0x10, 0x08, 0x04, 0x02, 0x01].map fun bit => octet &&& bit ≠ 0

def netmaskValid (mask : Ipv4) : Bool :=
  ((mask.octets.flatMap octetBits).dropWhile id).all (!·)

def readOption (options : List UInt8) (type : UInt8) (fits : Nat → Bool)
    (store : Lease → Ipv4 → Lease × Bool) (l : Lease × Bool) : Lease × Bool :=
  if l.2 = false then l
  else match optionFind options type with
    | none => l
    | some value => if fits value.length then store l.1 (ipFrom value) else (l.1, false)

def readServer (options : List UInt8) : Lease × Bool → Lease × Bool :=
  readOption options optionServerId (· = 4) fun l a => ({ l with server := a }, true)

def readNetmask (options : List UInt8) : Lease × Bool → Lease × Bool :=
  readOption options optionSubnetMask (· = 4) fun l a => ({ l with netmask := a }, netmaskValid a)

def readGateway (options : List UInt8) : Lease × Bool → Lease × Bool :=
  readOption options optionRouter (4 ≤ ·) fun l a =>
    if a = zeroAddress then ({ l with gateway := a }, false)
    else ({ l with gateway := a, hasGateway := true }, true)

def readDns (options : List UInt8) : Lease × Bool → Lease × Bool :=
  readOption options optionDns (4 ≤ ·) fun l a =>
    if a = zeroAddress then ({ l with dns := a }, false)
    else ({ l with dns := a, hasDns := true }, true)

def dhcpTimingValid (lease renewal rebinding : Nat) : Bool :=
  lease ≠ 0 ∧ renewal < rebinding ∧ rebinding < lease

def leaseTimes (options : List UInt8) : Option (Nat × Nat × Nat) :=
  match optionSeconds options optionLeaseTime, optionSeconds options optionRenewalTime,
      optionSeconds options optionRebindingTime with
  | some (some lease), some renewal, some rebinding =>
    let renewal := renewal.getD (lease / 2)
    let rebinding := rebinding.getD (lease * 7 / 8)
    let renewal := if renewal = 0 then 1 else renewal
    let rebinding := if rebinding ≤ renewal then (renewal + 1) % 2 ^ 32 else rebinding
    let rebinding := if lease ≤ rebinding then lease - 1 else rebinding
    if lease = 0 ∨ dhcpTimingValid lease renewal rebinding = false then none
    else some (lease, renewal, rebinding)
  | _, _, _ => none

def wireSize : Nat := 240

def magicCookie : BitVec 32 := 0x63825363

def messageOffer : UInt8 := 2
def messageAck : UInt8 := 5
def messageNak : UInt8 := 6

structure Datagram where
  device : Nat
  source : Ipv4
  packet : List UInt8
deriving DecidableEq

def dhcpMessage (devices : Devices) (c : Client) (d : Datagram) : Option (UInt8 × List UInt8) :=
  let options := d.packet.drop wireSize
  if c.device ≠ some d.device ∨ devices.current d.device c.generation = false ∨
      d.packet.length < wireSize then none
  else if d.packet.getD 0 0 ≠ 2 ∨ d.packet.getD 1 0 ≠ 1 ∨ d.packet.getD 2 0 ≠ 6 ∨
      read32 d.packet 4 ≠ c.xid ∨ read32 d.packet 236 ≠ magicCookie then none
  else if (d.packet.drop 28).take 6 ≠ devices.mac d.device then none
  else if optionsValid options = false then none
  else match optionFind options optionMessageType with
    | some [message] => some (message, options)
    | _ => none

def Client.renewing (c : Client) : Bool := c.phase = .renewing ∨ c.phase = .rebinding

def receiveOffer (c : Client) (d : Datagram) (options : List UInt8) : Client :=
  let offered := ipFrom (d.packet.drop 16)
  let r := readDns options (readGateway options (readNetmask options
    (readServer options ({ Lease.zero with address := offered }, true))))
  { c with offered := offered, lease := r.1, event := if r.2 then .offer else c.event }

def receiveAck (c : Client) (d : Datagram) (options : List UInt8) : Client :=
  let address := ipFrom (d.packet.drop 16)
  if c.renewing = false ∧ address = zeroAddress then c
  else if c.phase = .renewing ∧ c.lease.server ≠ zeroAddress ∧ d.source ≠ c.lease.server then c
  else match leaseTimes options with
    | none => c
    | some (lease, renewal, rebinding) =>
      let start := if address = zeroAddress then c.lease else { c.lease with address := address }
      let r := readServer options (readDns options (readGateway options
        (readNetmask options (start, true))))
      if r.2 then
        { c with
          lease := { r.1 with
            leaseSeconds := lease
            renewalSeconds := renewal
            rebindingSeconds := rebinding }
          phase := .bound
          event := .ack }
      else { c with lease := r.1 }

def dhcpUdpReceive (devices : Devices) (c : Client) (d : Datagram) : Client :=
  match dhcpMessage devices c d with
  | none => c
  | some (message, options) =>
    if message = messageOffer ∧ c.phase = .selecting then receiveOffer c d options
    else if message = messageNak ∧ (c.phase = .requesting ∨ c.renewing) then
      { c with event := .nak }
    else if message ≠ messageAck ∨ (c.phase ≠ .requesting ∧ c.renewing = false) then c
    else receiveAck c d options

inductive Mode where
  | none
  | dhcp
  | manual
deriving DecidableEq

inductive ConfigState where
  | none
  | acquiring
  | bound
  | renewing
  | rebinding
deriving DecidableEq

/-- The configuration of the interface that a lease fills in. -/
structure NetConfig where
  address : Ipv4
  netmask : Ipv4
  gateway : Ipv4
  dns : Ipv4
  dhcpServer : Ipv4
  leaseSeconds : Nat
  mode : Mode
  configured : Bool
  hasGateway : Bool
  hasDns : Bool
  dhcpState : ConfigState
  renewalSeconds : Nat
  rebindingSeconds : Nat
  leaseAcquiredMs : Nat
  renewalDeadlineMs : Nat
  rebindingDeadlineMs : Nat
  expiryDeadlineMs : Nat
  retryDeadlineMs : Nat
  retryDelayMs : Nat
deriving DecidableEq

def NetConfig.zero : NetConfig where
  address := zeroAddress
  netmask := zeroAddress
  gateway := zeroAddress
  dns := zeroAddress
  dhcpServer := zeroAddress
  leaseSeconds := 0
  mode := .none
  configured := false
  hasGateway := false
  hasDns := false
  dhcpState := .none
  renewalSeconds := 0
  rebindingSeconds := 0
  leaseAcquiredMs := 0
  renewalDeadlineMs := 0
  rebindingDeadlineMs := 0
  expiryDeadlineMs := 0
  retryDeadlineMs := 0
  retryDelayMs := 0

def after (now delay : Nat) : Nat := if u64Max - delay < now then u64Max else now + delay

def markDhcpAttempt (c : NetConfig) (rebinding : Bool) (now : Nat) : NetConfig :=
  if c.mode ≠ .dhcp ∨ c.configured = false then c
  else
    let state : ConfigState := if rebinding then .rebinding else .renewing
    let delay := if c.dhcpState ≠ state ∨ c.retryDelayMs = 0 then 1000 else c.retryDelayMs
    { c with dhcpState := state, retryDelayMs := delay, retryDeadlineMs := after now delay }

def markDhcpFailure (c : NetConfig) (now : Nat) : NetConfig :=
  if c.mode ≠ .dhcp ∨ c.configured = false ∨
      (c.dhcpState ≠ .renewing ∧ c.dhcpState ≠ .rebinding) then c
  else
    let delay := if c.retryDelayMs < 4000 then min (c.retryDelayMs * 2) 4000 else c.retryDelayMs
    let limit := if c.dhcpState = .renewing then c.rebindingDeadlineMs else c.expiryDeadlineMs
    { c with retryDelayMs := delay, retryDeadlineMs := min (after now delay) limit }

def timingNormalize (lease renewal rebinding : Nat) : Option (Nat × Nat) :=
  if lease < 3 then none
  else
    let renewal := if renewal = 0 then lease / 2 else renewal
    let rebinding := if rebinding = 0 then lease * 7 / 8 else rebinding
    let renewal := if renewal = 0 then 1 else renewal
    let rebinding := if rebinding ≤ renewal then (renewal + 1) % 2 ^ 32 else rebinding
    let rebinding := if lease ≤ rebinding then lease - 1 else rebinding
    if renewal = 0 ∨ rebinding ≤ renewal ∨ lease ≤ rebinding then none
    else some (renewal, rebinding)

def deadlineAfter (start seconds : Nat) : Option Nat :=
  if u64Max - seconds * 1000 < start then none else some (start + seconds * 1000)

/-- The configuration and whether the lease was applied; the first deadlines are
stored even if a later one is out of range. -/
def applyDhcp (c : NetConfig) (l : Lease) (now : Nat) : NetConfig × Bool :=
  if l.address = zeroAddress ∨ netmaskValid l.netmask = false then (c, false)
  else match timingNormalize l.leaseSeconds l.renewalSeconds l.rebindingSeconds with
    | none => (c, false)
    | some (renewal, rebinding) => match deadlineAfter now l.leaseSeconds with
      | none => (c, false)
      | some expiryMs => match deadlineAfter now renewal with
        | none => ({ c with expiryDeadlineMs := expiryMs }, false)
        | some renewalMs => match deadlineAfter now rebinding with
          | none => ({ c with expiryDeadlineMs := expiryMs, renewalDeadlineMs := renewalMs }, false)
          | some rebindingMs =>
            ({ address := l.address
               netmask := l.netmask
               gateway := l.gateway
               dns := l.dns
               dhcpServer := l.server
               leaseSeconds := l.leaseSeconds
               mode := .dhcp
               configured := true
               hasGateway := l.hasGateway
               hasDns := l.hasDns
               dhcpState := .bound
               renewalSeconds := renewal
               rebindingSeconds := rebinding
               leaseAcquiredMs := now
               renewalDeadlineMs := renewalMs
               rebindingDeadlineMs := rebindingMs
               expiryDeadlineMs := expiryMs
               retryDeadlineMs := renewalMs
               retryDelayMs := 1000 }, true)

inductive Ending where
  | ack
  | nak
  | timeout
  | lost
deriving DecidableEq

inductive Code where
  | ok
  | networkUnavailable
  | timeout
  | io
deriving DecidableEq

/-- How the call ended: what ended its exchange, if it had one, whether
`dhcp_renew` returned true, its `rejected`, and the result of the call. -/
structure Outcome where
  ending : Option Ending
  renewed : Bool
  rejected : Bool
  code : Code
deriving DecidableEq

/-- Where a call that renews the lease stands. -/
inductive Pc where
  | enter
  | setup (current : Lease)
  | head
  | clear
  | send
  | check
  | waited
  | failed (ending : Ending)
  | answered (ending : Ending)
  | bound (ending : Ending)
  | refused (ending : Option Ending) (rejected : Bool)
  | renewed (ending : Ending) (lease : Lease)
  | returned (o : Outcome)
deriving DecidableEq

/-- A renewal under way, with all it reads and writes. -/
structure Renewal where
  client : Client
  config : NetConfig
  devices : Devices
  device : Nat
  usable : Bool
  rebinding : Bool
  pc : Pc
  start : Nat
  waitMs : Nat
  sent : Bool
  deadline : Nat

/-- What the environment answers in one round of the call. -/
structure Turn where
  now : Nat
  ticks : Nat
  sends : Bool
  sleeps : Bool
deriving DecidableEq

def renewRetryMs : Nat := 1000

def renewTimeoutMs : Nat := 7 * renewRetryMs

def leaseOf (c : NetConfig) : Lease where
  address := c.address
  netmask := c.netmask
  gateway := c.gateway
  dns := c.dns
  server := c.dhcpServer
  leaseSeconds := c.leaseSeconds
  renewalSeconds := c.renewalSeconds
  rebindingSeconds := c.rebindingSeconds
  hasGateway := c.hasGateway
  hasDns := c.hasDns

def leaseCopy (l : Lease) : Lease :=
  if l.netmask = zeroAddress then { l with netmask := ⟨255, 255, 255, 255⟩ } else l

def xidOf (ticks : Nat) (mac : List UInt8) : BitVec 32 :=
  BitVec.ofNat 32 ticks ^^^ (BitVec.ofNat 32 (mac.getD 4 0).toNat <<< 8) ^^^
    BitVec.ofNat 32 (mac.getD 5 0).toNat ^^^ 0x4d475200

def Renewal.current (s : Renewal) : Bool :=
  s.client.device.any fun device => s.devices.current device s.client.generation

def Ending.ofEvent : Event → Ending
  | .nak => .nak
  | _ => .ack

def renewStep (s : Renewal) (turn : Turn) : Renewal :=
  match s.pc with
  | .enter =>
    if s.config.mode ≠ .dhcp ∨ s.config.configured = false ∨ s.usable = false then
      { s with pc := .returned ⟨none, false, false, .networkUnavailable⟩ }
    else { s with
      config := markDhcpAttempt s.config s.rebinding turn.now
      pc := .setup (leaseOf s.config) }
  | .setup current =>
    if current.address = zeroAddress then { s with pc := .refused none false }
    -- nothing is received before the phase is stored last
    else { s with
      client := { Client.zero with
        device := some s.device
        generation := (s.devices.generation s.device).getD 0
        lease := current
        xid := xidOf turn.ticks (s.devices.mac s.device)
        phase := if s.rebinding then .rebinding else .renewing
        event := s.client.event }
      start := turn.now
      waitMs := renewRetryMs
      pc := .head }
  | .head =>
    let elapsed := sub64 turn.now s.start
    if renewTimeoutMs ≤ elapsed then { s with pc := .failed .timeout }
    else if s.devices.current s.device s.client.generation = false then
      { s with pc := .failed .lost }
    else { s with waitMs := min s.waitMs (renewTimeoutMs - elapsed), pc := .clear }
  | .clear => { s with client := { s.client with event := .none }, pc := .send }
  | .send => { s with sent := turn.sends, deadline := after turn.now s.waitMs, pc := .check }
  | .check =>
    let ready : Bool := s.client.event = .ack ∨ s.client.event = .nak
    if ready ∨ s.current = false ∨ s.deadline ≤ turn.now then
      { s with pc := if ready ∧ s.current then .answered (.ofEvent s.client.event) else .waited }
    else if turn.sleeps then s
    else { s with pc := .waited }
  | .waited =>
    if s.sent = false ∧ renewTimeoutMs ≤ sub64 turn.now s.start then
      { s with pc := .failed .timeout }
    else { s with waitMs := if s.waitMs < 8000 then s.waitMs * 2 else s.waitMs, pc := .head }
  | .failed ending => { s with pc := .refused (some ending) (s.client.event = .nak) }
  | .answered ending =>
    if s.client.event ≠ .ack then { s with pc := .refused (some ending) false }
    else { s with pc := .bound ending }
  | .bound ending =>
    if s.client.phase ≠ .bound then { s with pc := .refused (some ending) false }
    else { s with pc := .renewed ending (leaseCopy s.client.lease) }
  | .refused ending rejected =>
    if rejected then
      { s with
        config := NetConfig.zero
        client := Client.zero
        pc := .returned ⟨ending, false, true, .networkUnavailable⟩ }
    else
      { s with
        config := markDhcpFailure s.config turn.now
        pc := .returned ⟨ending, false, false, .timeout⟩ }
  | .renewed ending lease =>
    let applied := applyDhcp s.config lease turn.now
    if applied.2 then
      { s with config := applied.1, pc := .returned ⟨some ending, true, false, .ok⟩ }
    else
      { s with
        config := markDhcpFailure applied.1 turn.now
        pc := .returned ⟨some ending, true, false, .io⟩ }
  | .returned _ => s

inductive Action where
  | run (turn : Turn)
  | arrive (d : Datagram)
  | plug (devices : Devices)

def Renewal.next (s : Renewal) : Action → Renewal
  | .run turn => renewStep s turn
  | .arrive d => { s with client := dhcpUdpReceive s.devices s.client d }
  | .plug devices => { s with devices := devices }

def InOrder (lease renewal rebinding : Nat) : Prop :=
  0 < renewal ∧ renewal < rebinding ∧ rebinding < lease

def Lease.Ordered (l : Lease) : Prop :=
  InOrder l.leaseSeconds l.renewalSeconds l.rebindingSeconds

/-- The configuration has the lease's own times, and its deadlines are in order. -/
def Scheduled (l : Lease) (config : NetConfig) : Prop :=
  config.leaseSeconds = l.leaseSeconds ∧ config.renewalSeconds = l.renewalSeconds ∧
    config.rebindingSeconds = l.rebindingSeconds ∧
    config.renewalDeadlineMs < config.rebindingDeadlineMs ∧
    config.rebindingDeadlineMs < config.expiryDeadlineMs

section

variable {c : Client} {d : Datagram} {options : List UInt8} {l : Lease}

lemma leaseTimes_ordered {times : Nat × Nat × Nat} (h : leaseTimes options = some times) :
    InOrder times.1 times.2.1 times.2.2 := by
  unfold leaseTimes at h
  split at h
  · obtain ⟨hvalid, htimes⟩ := Option.ite_none_left_eq_some.mp h
    obtain rfl := Option.some.inj htimes
    rw [not_or, dhcpTimingValid, decide_eq_false_iff_not, not_not] at hvalid
    refine ⟨?_, hvalid.2.2⟩
    dsimp only
    split <;> omega
  · cases h

lemma leaseTimes_kept {lease : Nat} {renewal rebinding : Option Nat}
    (hlease : optionSeconds options optionLeaseTime = some (some lease))
    (hrenewal : optionSeconds options optionRenewalTime = some renewal)
    (hrebinding : optionSeconds options optionRebindingTime = some rebinding)
    (h : InOrder lease (renewal.getD (lease / 2)) (rebinding.getD (lease * 7 / 8))) :
    leaseTimes options =
      some (lease, renewal.getD (lease / 2), rebinding.getD (lease * 7 / 8)) := by
  obtain ⟨hpos, hlt, hend⟩ := h
  simp only [leaseTimes, hlease, hrenewal, hrebinding]
  rw [if_neg hpos.ne', if_neg hlt.not_ge, if_neg hend.not_ge, if_neg]
  rw [dhcpTimingValid, not_or, decide_eq_false_iff_not, not_not]
  omega

lemma receiveAck_ordered :
    (receiveAck c d options).phase = c.phase ∨ (receiveAck c d options).lease.Ordered := by
  unfold receiveAck
  dsimp only
  split
  · exact .inl rfl
  · split
    · exact .inl rfl
    · split
      · exact .inl rfl
      · next htimes =>
        split_ifs
        any_goals exact .inl rfl
        all_goals exact .inr (leaseTimes_ordered htimes)

lemma receive_ordered {devices : Devices} (hc : c.phase ≠ .bound)
    (h : (dhcpUdpReceive devices c d).phase = .bound) :
    (dhcpUdpReceive devices c d).lease.Ordered := by
  unfold dhcpUdpReceive at h ⊢
  split at h
  · exact absurd h hc
  · split_ifs at h ⊢
    · exact absurd h hc
    · exact absurd h hc
    · exact absurd h hc
    · exact receiveAck_ordered.resolve_left fun hsame => hc (hsame.symm.trans h)

lemma timingNormalize_fixed (h : l.Ordered) :
    timingNormalize l.leaseSeconds l.renewalSeconds l.rebindingSeconds =
      some (l.renewalSeconds, l.rebindingSeconds) := by
  obtain ⟨hpos, hlt, hend⟩ := h
  simp only [timingNormalize]
  rw [if_neg (by omega), if_neg hpos.ne', if_neg (hpos.trans hlt).ne', if_neg hpos.ne',
    if_neg hlt.not_ge, if_neg hend.not_ge, if_neg (by omega)]

lemma applyDhcp_ordered {config : NetConfig} {now : Nat} (h : l.Ordered)
    (haddress : l.address ≠ zeroAddress) (hmask : netmaskValid l.netmask = true) :
    ((applyDhcp config l now).2 = true ↔ now ≤ u64Max - l.leaseSeconds * 1000) ∧
    ((applyDhcp config l now).2 = true → Scheduled l (applyDhcp config l now).1) := by
  have hfixed := timingNormalize_fixed h
  obtain ⟨hpos, hlt, hend⟩ := h
  unfold applyDhcp Scheduled
  rw [if_neg (by simp [haddress, hmask]), hfixed]
  by_cases hnow : now ≤ u64Max - l.leaseSeconds * 1000
  · have hdeadline : ∀ {s}, s ≤ l.leaseSeconds → deadlineAfter now s = some (now + s * 1000) :=
      fun hs => if_neg (by omega)
    simp only [hdeadline le_rfl, hdeadline hend.le, hdeadline (hlt.trans hend).le]
    refine ⟨iff_of_true trivial hnow, fun _ => ⟨trivial, trivial, trivial, ?_⟩⟩
    omega
  · have hnone : deadlineAfter now l.leaseSeconds = none := if_pos (Nat.not_le.mp hnow)
    simp [hnone, hnow]

end

/-- An accepted acknowledgement has its times in order; times in order, defaults
included, are kept by both normalisers, and their deadlines are in order too. -/
theorem lease_timing (devices : Devices) (c : Client) (d : Datagram) (options : List UInt8)
    (l : Lease) (config : NetConfig) (now : Nat) :
    (c.phase ≠ .bound → (dhcpUdpReceive devices c d).phase = .bound →
      (dhcpUdpReceive devices c d).lease.Ordered) ∧
    (∀ lease renewal rebinding, leaseTimes options = some (lease, renewal, rebinding) →
      InOrder lease renewal rebinding) ∧
    (∀ lease renewal rebinding, optionSeconds options optionLeaseTime = some (some lease) →
      optionSeconds options optionRenewalTime = some renewal →
      optionSeconds options optionRebindingTime = some rebinding →
      InOrder lease (renewal.getD (lease / 2)) (rebinding.getD (lease * 7 / 8)) ∨
        renewal = none ∧ rebinding = none ∧ 3 ≤ lease →
      leaseTimes options =
        some (lease, renewal.getD (lease / 2), rebinding.getD (lease * 7 / 8))) ∧
    (l.Ordered → timingNormalize l.leaseSeconds l.renewalSeconds l.rebindingSeconds =
        some (l.renewalSeconds, l.rebindingSeconds) ∧
      (l.address ≠ zeroAddress → netmaskValid l.netmask = true →
        ((applyDhcp config l now).2 = true ↔ now ≤ u64Max - l.leaseSeconds * 1000) ∧
        ((applyDhcp config l now).2 = true → Scheduled l (applyDhcp config l now).1))) := by
  refine ⟨receive_ordered, fun _ _ _ => leaseTimes_ordered, ?_,
    fun h => ⟨timingNormalize_fixed h, applyDhcp_ordered h⟩⟩
  intro lease renewal rebinding hlease hrenewal hrebinding h
  refine leaseTimes_kept hlease hrenewal hrebinding (h.elim id ?_)
  rintro ⟨rfl, rfl, hthree⟩
  simp only [InOrder, Option.getD_none]
  omega

def hardwareAddress : List UInt8 := [0x52, 0x54, 0, 0x12, 0x34, 0x56]

def leaseServer : Ipv4 := ⟨10, 0, 2, 2⟩

def oneDevice : Devices :=
  ⟨fun device => if device = 0 then some 1 else none, fun _ => hardwareAddress⟩

def requester : Client :=
  { Client.zero with device := some 0, generation := 1, xid := 7, phase := .requesting }

def shortOptions : List UInt8 :=
  [optionMessageType, 1, messageAck, optionLeaseTime, 4, 0, 0, 0, 3, optionEnd]

/-- The server acknowledges 10.0.2.15 for three seconds. -/
def shortAck : Datagram where
  device := 0
  source := leaseServer
  packet := [2, 1, 6, 0] ++ write32 7 ++ List.replicate 8 0 ++ [10, 0, 2, 15] ++
    List.replicate 8 0 ++ hardwareAddress ++ List.replicate 202 0 ++ write32 magicCookie ++
    shortOptions

def shortLease : Lease := (dhcpUdpReceive oneDevice requester shortAck).lease

/-- The shortest lease that the client accepts, from its acknowledgement to the deadlines. -/
theorem lease_timing_three :
    (dhcpUdpReceive oneDevice requester shortAck).phase = .bound ∧ shortLease.Ordered ∧
      leaseTimes shortOptions = some (3, 1, 2) ∧ InOrder 3 1 2 ∧
      (applyDhcp NetConfig.zero shortLease 1000).2 = true ∧
      Scheduled shortLease (applyDhcp NetConfig.zero shortLease 1000).1 := by
  obtain ⟨hordered, hinOrder, htimes, happly⟩ :=
    lease_timing oneDevice requester shortAck shortOptions shortLease NetConfig.zero 1000
  have hbound : (dhcpUdpReceive oneDevice requester shortAck).phase = .bound := by decide +kernel
  have hlease : shortLease.Ordered := hordered (by decide) hbound
  have hthree : leaseTimes shortOptions = some (3, 1, 2) :=
    htimes 3 none none (by decide) (by decide) (by decide) (.inr ⟨rfl, rfl, le_rfl⟩)
  obtain ⟨happlied, hscheduled⟩ := (happly hlease).2 (by decide +kernel) (by decide +kernel)
  have htaken : (applyDhcp NetConfig.zero shortLease 1000).2 = true :=
    happlied.mpr (by decide +kernel)
  exact ⟨hbound, hlease, hthree, hinOrder 3 1 2 hthree, htaken, hscheduled htaken⟩

def Kept (c c' : NetConfig) : Prop :=
  c' = { c with
    dhcpState := c'.dhcpState
    retryDeadlineMs := c'.retryDeadlineMs
    retryDelayMs := c'.retryDelayMs }

instance (c c' : NetConfig) : Decidable (Kept c c') := inferInstanceAs (Decidable (c' = _))

/-- A lease that was refused is given up, and one that was not is kept. -/
def GivenUp (before after : NetConfig) (o : Outcome) : Prop :=
  (o.ending = some .nak → o.renewed = false ∧ o.rejected = true ∧ after = NetConfig.zero) ∧
    (o.ending = some .timeout → o.rejected = false ∧ Kept before after)

instance (before after : NetConfig) (o : Outcome) : Decidable (GivenUp before after o) :=
  inferInstanceAs (Decidable (_ ∧ _))

/-- The wait does not find a refusal, and there is none when the end of an
exchange that timed out is looked at. -/
def Renewal.Unrefused (s : Renewal) : Action → Prop
  | .run _ => (s.pc = .check → s.client.event = .nak → s.current = false) ∧
    (s.pc = .failed .timeout → s.client.event ≠ .nak)
  | _ => True

instance (s : Renewal) : ∀ act, Decidable (s.Unrefused act)
  | .run _ => inferInstanceAs (Decidable (_ ∧ _))
  | .arrive _ => .isTrue trivial
  | .plug _ => .isTrue trivial

variable (c : NetConfig)

lemma Kept.refl : Kept c c := rfl

lemma Kept.trans {a b c : NetConfig} (h : Kept a b) (h' : Kept b c) : Kept a c := by
  unfold Kept at *
  rw [h', h]

lemma kept_markDhcpAttempt (rebinding : Bool) (now : Nat) :
    Kept c (markDhcpAttempt c rebinding now) := by
  unfold markDhcpAttempt
  split
  · exact Kept.refl c
  · rfl

lemma kept_markDhcpFailure (now : Nat) : Kept c (markDhcpFailure c now) := by
  unfold markDhcpFailure
  split
  · exact Kept.refl c
  · rfl

def Pc.ending : Pc → Option Ending
  | .failed ending | .answered ending | .bound ending | .renewed ending _ => some ending
  | .refused ending _ => ending
  | .returned o => o.ending
  | _ => none

def Pc.rejects : Pc → Bool
  | .refused _ rejected => rejected
  | .returned o => o.rejected
  | _ => false

def Renewal.Doomed (s : Renewal) : Prop :=
  s.pc.ending = some .nak ∨ s.pc.ending = some .timeout ∧ s.pc.rejects = true

def Sound (before : NetConfig) (s : Renewal) : Prop :=
  match s.pc with
  | .failed ending => ending ≠ .nak ∧ Kept before s.config
  | .answered ending | .bound ending | .renewed ending _ =>
    ending ≠ .timeout ∧ Kept before s.config
  | .refused ending rejected => (ending = some .nak → rejected = false) ∧ Kept before s.config
  | .returned o => (o.ending = some .nak → o.rejected = false) ∧
    (o.ending = some .timeout → o.rejected = false → Kept before s.config)
  | _ => Kept before s.config

variable {before : NetConfig} {s : Renewal}

section

variable (h : Sound before s)

include h

lemma Sound.next (act : Action) : Sound before (s.next act) := by
  cases act with
  | arrive | plug => exact h
  | run turn =>
  show Sound before (renewStep s turn)
  unfold Sound at h
  unfold renewStep
  cases hpc : s.pc <;> simp only [hpc] at h ⊢
  case enter =>
    split
    · exact ⟨nofun, nofun⟩
    · exact h.trans (kept_markDhcpAttempt _ _ _)
  case setup | waited =>
    split
    · exact ⟨nofun, h⟩
    · exact h
  case head =>
    split
    · exact ⟨nofun, h⟩
    split
    · exact ⟨nofun, h⟩
    · exact h
  case clear | send => exact h
  case check =>
    split
    · split
      · refine ⟨?_, h⟩
        cases s.client.event <;> nofun
      · exact h
    split
    · unfold Sound
      rw [hpc]
      exact h
    · exact h
  case failed => exact ⟨fun hnak => absurd (Option.some.inj hnak) h.1, h.2⟩
  case answered | bound =>
    split
    · exact ⟨fun _ => rfl, h.2⟩
    · exact h
  case refused ending rejected =>
    cases rejected with
    | true =>
      rw [if_pos rfl]
      exact ⟨h.1, nofun⟩
    | false =>
      rw [if_neg Bool.false_ne_true]
      exact ⟨fun _ => rfl, fun _ _ => h.2.trans (kept_markDhcpFailure _ _)⟩
  case renewed ending lease =>
    have hnot : some ending = some .timeout → False := fun heq => h.1 (Option.some.inj heq)
    split
    all_goals exact ⟨fun _ => rfl, fun heq => (hnot heq).elim⟩
  case returned =>
    unfold Sound
    rw [hpc]
    exact h

lemma doomed_next_iff (act : Action) : (s.next act).Doomed ↔ s.Doomed ∨ ¬ s.Unrefused act := by
  cases act with
  | arrive | plug => simp [Renewal.next, Renewal.Doomed, Renewal.Unrefused]
  | run turn =>
  show (renewStep s turn).Doomed ↔ _
  unfold Sound at h
  unfold renewStep Renewal.Unrefused
  cases hpc : s.pc with
  | enter | setup =>
    dsimp only
    split <;> simp [Renewal.Doomed, Pc.ending, hpc]
  | head =>
    dsimp only
    split
    · simp [Renewal.Doomed, Pc.ending, Pc.rejects, hpc]
    split <;> simp [Renewal.Doomed, Pc.ending, hpc]
  | clear | send => simp [Renewal.Doomed, Pc.ending, hpc]
  | check =>
    dsimp only
    have hself : ¬ s.Doomed := by simp [Renewal.Doomed, Pc.ending, hpc]
    have hwaited : ¬ ({ s with pc := .waited } : Renewal).Doomed := by
      simp [Renewal.Doomed, Pc.ending]
    split
    · split
      · next hready =>
        have hcurrent : s.current = true := by simpa using hready.2
        cases hevent : s.client.event <;>
          simp [Renewal.Doomed, Pc.ending, hpc, hcurrent, Ending.ofEvent]
      · next hready =>
        have hfine : s.client.event = .nak → s.current = false := by
          intro hnak
          simpa [hnak] using hready
        simpa [hself, hwaited] using hfine
    · next hready =>
      have hfine : s.client.event ≠ .nak := by
        intro hnak
        simp [hnak] at hready
      split <;> simp [hself, hwaited, hfine]
  | waited | renewed =>
    dsimp only
    split <;> simp [Renewal.Doomed, Pc.ending, Pc.rejects, hpc]
  | failed ending =>
    simp only [hpc] at h
    have hnak := h.1
    cases ending <;> simp [Renewal.Doomed, Pc.ending, Pc.rejects, hpc] at hnak ⊢
  | answered | bound =>
    simp only [hpc] at h ⊢
    split <;> simp [Renewal.Doomed, Pc.ending, Pc.rejects, hpc]
  | refused ending rejected =>
    cases rejected <;> simp [Renewal.Doomed, Pc.ending, Pc.rejects, hpc]
  | returned o => simp

lemma doomed_run (hs : s.Doomed) (acts : List Action) : (acts.foldl Renewal.next s).Doomed := by
  induction acts generalizing s with
  | nil => exact hs
  | cons act rest ih => exact ih (h.next act) ((doomed_next_iff h act).mpr (.inl hs))

lemma Sound.run (acts : List Action) : Sound before (acts.foldl Renewal.next s) := by
  induction acts generalizing s with
  | nil => exact h
  | cons act rest ih => exact ih (h.next act)

lemma givenUp_iff {o : Outcome}
    (hpc : s.pc = .returned o) : GivenUp before s.config o ↔ ¬ s.Doomed := by
  unfold Sound at h
  simp only [hpc] at h
  obtain ⟨hnak, htimeout⟩ := h
  unfold GivenUp Renewal.Doomed
  simp only [hpc, Pc.ending, Pc.rejects]
  constructor
  · rintro ⟨hrefused, hkept⟩ (hending | ⟨hending, hrejected⟩)
    · have hfalse := (hrefused hending).2.1
      rw [hnak hending] at hfalse
      cases hfalse
    · rw [(hkept hending).1] at hrejected
      cases hrejected
  · intro hnot
    refine ⟨fun hending => absurd (.inl hending) hnot, fun hending => ?_⟩
    have hrejected : o.rejected = false := by
      rw [← Bool.not_eq_true]
      exact fun htrue => hnot (.inr ⟨hending, htrue⟩)
    exact ⟨hrejected, htimeout hending hrejected⟩

lemma doomed_run_iff (hs : ¬ s.Doomed) (acts : List Action) :
    (acts.foldl Renewal.next s).Doomed ↔ ¬ AllFine Renewal.next Renewal.Unrefused s acts := by
  induction acts generalizing s with
  | nil => simp [AllFine, hs]
  | cons act rest ih =>
    rw [List.foldl_cons, AllFine]
    by_cases hfine : s.Unrefused act
    · have hnext : ¬ (s.next act).Doomed := by
        rw [doomed_next_iff h]
        simp [hs, hfine]
      rw [ih (h.next act) hnext]
      simp [hfine]
    · have hnext := (doomed_next_iff h act).mpr (.inr hfine)
      refine iff_of_true ?_ fun hall => hfine hall.1
      exact doomed_run (h.next act) hnext rest

end

/-- A call gives the lease up as it should exactly if it does not come upon a
refusal. -/
theorem givenUp_iff_unrefused {s : Renewal} {acts : List Action} {o : Outcome}
    (henter : s.pc = .enter) (hreturned : (acts.foldl Renewal.next s).pc = .returned o) :
    GivenUp s.config (acts.foldl Renewal.next s).config o ↔
      AllFine Renewal.next Renewal.Unrefused s acts := by
  have hsound : Sound s.config s := by
    unfold Sound
    rw [henter]
    exact Kept.refl _
  have hs : ¬ s.Doomed := by simp [Renewal.Doomed, henter, Pc.ending]
  rw [givenUp_iff (hsound.run acts) hreturned, doomed_run_iff hsound hs, not_not]

def leasedConfig : NetConfig where
  address := ⟨10, 0, 2, 15⟩
  netmask := ⟨255, 255, 255, 0⟩
  gateway := leaseServer
  dns := ⟨10, 0, 2, 3⟩
  dhcpServer := leaseServer
  leaseSeconds := 3600
  mode := .dhcp
  configured := true
  hasGateway := true
  hasDns := true
  dhcpState := .bound
  renewalSeconds := 1800
  rebindingSeconds := 3150
  leaseAcquiredMs := 0
  renewalDeadlineMs := 1800000
  rebindingDeadlineMs := 3150000
  expiryDeadlineMs := 3600000
  retryDeadlineMs := 1800000
  retryDelayMs := 1000

def leaseholder : Renewal where
  client := Client.zero
  config := leasedConfig
  devices := oneDevice
  device := 0
  usable := true
  rebinding := false
  pc := .enter
  start := 0
  waitMs := 0
  sent := false
  deadline := 0

def refusal (xid : BitVec 32) : Datagram where
  device := 0
  source := leaseServer
  packet := [2, 1, 6, 0] ++ write32 xid ++ List.replicate 20 0 ++ hardwareAddress ++
    List.replicate 202 0 ++ write32 magicCookie ++ [optionMessageType, 1, messageNak, optionEnd]

def turnAt (now : Nat) : Action := .run ⟨1800000 + now, 0, true, true⟩

def silentRun : List Action := List.replicate 6 (turnAt 0) ++ List.replicate 5 (turnAt 7000)

/-- No answer comes. -/
theorem silentRun_givenUp : leaseholder.pc = .enter ∧
      (silentRun.foldl Renewal.next leaseholder).pc =
        .returned ⟨some .timeout, false, false, .timeout⟩ ∧
      GivenUp leaseholder.config (silentRun.foldl Renewal.next leaseholder).config
        ⟨some .timeout, false, false, .timeout⟩ :=
  ⟨rfl, by decide +kernel,
    (@givenUp_iff_unrefused leaseholder silentRun ⟨some .timeout, false, false, .timeout⟩ rfl
      (by decide +kernel)).mpr (by decide +kernel)⟩

def refusedRun : List Action :=
  List.replicate 6 (turnAt 0) ++ [.arrive (refusal (xidOf 0 hardwareAddress))] ++
    List.replicate 3 (turnAt 1)

/-- The server refuses, and the caller is told that time ran out. -/
theorem refusal_not_reported : (refusedRun.foldl Renewal.next leaseholder).pc =
        .returned ⟨some .nak, false, false, .timeout⟩ ∧
      Kept leasedConfig (refusedRun.foldl Renewal.next leaseholder).config ∧
      ¬ GivenUp leasedConfig (refusedRun.foldl Renewal.next leaseholder).config
        ⟨some .nak, false, false, .timeout⟩ := by
  decide +kernel

end Mangrove.Net.Dhcp
