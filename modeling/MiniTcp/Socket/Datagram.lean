import MiniTcp.Stack.Waiting

/-!
# What `send()` and `sendto()` of a datagram socket say

`udp_send` gives `False` for a datagram that waits for the address of its next hop and for one that was dropped, and
the socket makes 0 of both. A datagram that waits is sent when the reply comes, so a caller that believes the 0 and
sends it again sends it twice. `send_truthful_iff` says when the answer is right.
-/

namespace MiniTcp

/-- A host as `sendto` takes it. -/
inductive Host where
  | bytes (ip : Bytes)
  | text (host : String)

/-- `ip_to_bytes(remote_ip) if isinstance(remote_ip, str) else bytes(remote_ip)` -/
def Host.toBytes (py : Interpreter) : Host → Except PyError Bytes
  | .bytes ip => .ok ip
  | .text host => py.ipToBytes host

/-- What a call of a socket raises. -/
inductive SocketError where
  | osError (message : String)
  | raised (e : Raised)
  deriving DecidableEq, Repr

/-- A datagram socket and its stack. -/
structure DatagramSocket where
  stack : Stack
  boundPort : Option Nat := none
  peer : Option (Bytes × Nat) := none
  closed : Bool := false

/-- `send(data)` or `sendto(data, (host, port))`. -/
inductive SendCall where
  | send (data : Bytes)
  | sendto (data : Bytes) (host : Host) (port : Nat)

def SendCall.data : SendCall → Bytes
  | .send data => data
  | .sendto data _ _ => data

/-- A call of the socket, or what else happens to its stack. -/
inductive DatagramEvent where
  | bind (port handler : Nat)
  | connect (host : String) (port : Nat)
  | call (c : SendCall) (now : Time)
  | close
  | stack (e : CallEvent)

namespace DatagramSocket

section Calls

variable (py : Interpreter) (d : DatagramSocket)

/-- `_check_open` in front of a call. -/
def checkOpen {α : Type} (r : Except SocketError α × DatagramSocket) : Except SocketError α × DatagramSocket :=
  if d.closed then (.error (.osError "socket is closed"), d) else r

def bind (port handler : Nat) : Except SocketError Unit × DatagramSocket :=
  d.checkOpen <|
    if port ≤ 0xFFFF then (.ok (), { d with boundPort := some port, stack := d.stack.udpBind port handler })
    else (.error (.raised (.codec (.valueError "port out of range"))), d)

def connect (host : String) (port : Nat) : Except SocketError Unit × DatagramSocket :=
  d.checkOpen <|
    match py.ipToBytes host with
    | .error e => (.error (.raised (.codec e)), d)
    | .ok ip => (.ok (), { d with peer := some (ip, port), boundPort := some (d.boundPort.getD 0) })

/-- `ok = self.stack.udp_send(...)`, and `return len(data) if ok else 0` -/
def udpSend (data ip : Bytes) (port : Nat) (now : Time) : Except SocketError Nat × DatagramSocket :=
  let (ok, stack) := d.stack.udpSend data ip port (d.boundPort.getD 0) now
  ((ok.map fun ok => if ok then data.length else 0).mapError .raised, { d with stack := stack })

def send (data : Bytes) (now : Time) : Except SocketError Nat × DatagramSocket :=
  d.checkOpen <|
    if data = [] then (.ok 0, d)
    else
      match d.peer with
      | none => (.error (.osError "destination address required"), d)
      | some (ip, port) => d.udpSend data ip port now

def sendto (data : Bytes) (host : Host) (port : Nat) (now : Time) : Except SocketError Nat × DatagramSocket :=
  d.checkOpen <|
    match host.toBytes py with
    | .error e => (.error (.raised (.codec e)), d)
    | .ok ip => d.udpSend data ip port now

def call (now : Time) : SendCall → Except SocketError Nat × DatagramSocket
  | .send data => d.send data now
  | .sendto data host port => d.sendto py data host port now

def close : DatagramSocket :=
  if d.closed then d
  else { d with closed := true, stack := d.boundPort.elim d.stack d.stack.udpUnbind }

/-- The socket after an event, whatever the call returned or raised. -/
def step : DatagramEvent → DatagramSocket
  | .bind port handler => (d.bind port handler).2
  | .connect host port => (d.connect py host port).2
  | .call c now => (d.call py now c).2
  | .close => d.close
  | .stack e => { d with stack := d.stack.callStep e }

/-- The ARP frame that an event brings in, if the stack takes it. -/
def arpOf : DatagramEvent → Option EthernetFrame
  | .stack (.event e) => d.stack.arpOf e
  | _ => none

end Calls

end DatagramSocket

/-- All runs of one datagram socket on one stack. -/
def datagramSocket (py : Interpreter) : Machine DatagramSocket DatagramEvent where
  init d := ∃ cfg, d = { stack := .new cfg }
  next := DatagramSocket.step py

/-- The same runs, and with them one packet that was parked. -/
def following (py : Interpreter) : Machine (DatagramSocket × Place) DatagramEvent where
  init _ := True
  next t e :=
    (t.1.step py e, t.2.after t.1.stack.toInterface (t.1.step py e).stack.toInterface
      ((t.1.arpOf e).bind EthernetFrame.repliedBy))

/-! ### What an answer means -/

/-- It is a UDP packet with that payload. -/
def IPv4Packet.Carries (packet : IPv4Packet) (data : Bytes) : Prop :=
  packet.protocol = PROTO_UDP ∧ ∃ segment : UDPSegment, segment.payload = data ∧
    segment.toBytes (some packet.src) (some packet.dst) = .ok packet.payload

namespace Stack

/-- A packet with that payload has gone to the link. -/
def Emitted (s t : Stack) (data : Bytes) : Prop :=
  ∃ target packet, packet.Carries data ∧ t.departed = s.departed ++ [(target, packet)]

/-- A packet with that payload has been parked, with number `k` in the queue of `hop`. -/
def ParkedAt (s t : Stack) (data hop : Bytes) (k : Nat) : Prop :=
  k = (s.parked hop).length ∧ ∃ packet, packet.Carries data ∧ t.parked hop = s.parked hop ++ [packet]

/-- What waits cannot leave: it or a packet before it cannot be serialised. -/
def Blocked (s : Stack) (hop ip data : Bytes) : Prop :=
  (∃ packet ∈ s.parked hop, packet.encodes = false) ∨ ip.length ≠ 4 ∨ 65507 < data.length

/-- Whether the datagram is sent can be told at once: it does not wait, or it will never leave. Of an empty one
0 says that it was sent and that it was not, so it has to wait in vain. -/
def Decided (s : Stack) (ip data : Bytes) (now : Time) : Prop :=
  if data = [] then ∃ hop, s.Parks ip now hop ∧ s.Blocked hop ip data
  else ∀ hop, s.Parks ip now hop → s.Blocked hop ip data

variable {s t : Stack} {data : Bytes} {now : Time}

theorem udpSend_ok {ip : Bytes} {port localPort : Nat} {sent : Bool} (hs : s.Addressed)
    (h : s.udpSend data ip port localPort now = (.ok sent, t)) :
    ∃ packet, packet.dst = ip ∧ packet.Carries data ∧
      (packet.encodes = true ↔ ip.length = 4 ∧ data.length ≤ 65507) ∧
      Interface.Outcome s.toInterface t.toInterface packet now sent := by
  unfold udpSend onTables at h
  generalize s.localPort localPort = r at h
  obtain ⟨found, tables⟩ := r
  cases found with
  | error e => cases h
  | ok found =>
    dsimp only at h
    split at h
    · cases h
    · rename_i payload hbytes
      generalize hown : sendOwn _ PROTO_UDP ip payload now = r at h
      obtain ⟨result, t'⟩ := r
      cases result with
      | error e => cases h
      | ok _ =>
        cases h
        obtain ⟨packet, houtcome, hsrc, hdst, hprotocol, hpayload, hencodes⟩ :=
          sendOwn_ok (show PROTO_UDP ≤ 255 by decide) hown
        refine ⟨packet, hdst, ⟨hprotocol, { srcPort := found, dstPort := port, payload := data }, rfl, ?_⟩, ?_, ?_⟩
        · rw [hsrc, hdst, hpayload]
          exact hbytes
        · have hlength := UDPSegment.length_of_toBytes hbytes
          rw [UDPSegment.length, UDPSegment.HEADER_LEN] at hlength
          dsimp only at hlength
          rw [hencodes, hlength, MAX_PACKET]
          constructor
          · rintro ⟨-, hip, htotal⟩
            exact ⟨hip, by omega⟩
          · rintro ⟨hip, htotal⟩
            exact ⟨hs.ip, hip, by omega⟩
        · exact houtcome.of_counted (i := s.toInterface)

theorem not_emitted (h : t.departed = s.departed) : ¬ s.Emitted t data := by
  rintro ⟨target, packet, -, heq⟩
  rw [h, List.self_eq_append_right] at heq
  cases heq

theorem not_parkedAt {hop : Bytes} (h : t.parked hop = s.parked hop) (k : Nat) : ¬ s.ParkedAt t data hop k := by
  rintro ⟨-, packet, -, heq⟩
  rw [h, List.self_eq_append_right] at heq
  cases heq

theorem decided_of_not_parks {ip : Bytes} (h : ∀ hop, ¬ s.Parks ip now hop) : s.Decided ip data now ↔ data ≠ [] := by
  unfold Decided
  split_ifs with hnil
  · exact iff_of_false (fun ⟨hop, hparks, _⟩ => h hop hparks) (not_not.mpr hnil)
  · exact iff_of_true (fun hop hparks => absurd hparks (h hop)) hnil

theorem decided_of_parks {ip hop : Bytes} (h : s.Parks ip now hop) :
    s.Decided ip data now ↔ s.Blocked hop ip data := by
  have hsame : ∀ a, s.Parks ip now a → a = hop := by
    intro a ha
    have hnext := ha.next
    rw [h.next] at hnext
    exact (Except.ok.inj hnext).symm
  unfold Decided
  split_ifs
  · constructor
    · rintro ⟨a, ha, hblocked⟩
      rw [← hsame a ha]
      exact hblocked
    · exact fun hblocked => ⟨hop, h, hblocked⟩
  · constructor
    · exact fun hall => hall hop h
    · intro hblocked a ha
      rw [hsame a ha]
      exact hblocked

theorem blocked_iff {hop ip : Bytes} {packet : IPv4Packet}
    (h : packet.encodes = true ↔ ip.length = 4 ∧ data.length ≤ 65507) :
    (s.parked hop ++ [packet]).all IPv4Packet.encodes = false ↔ s.Blocked hop ip data := by
  have hself : packet.encodes = false ↔ ip.length ≠ 4 ∨ 65507 < data.length := by
    rw [← Bool.not_eq_true, h, not_and_or, Nat.not_le]
  rw [List.all_append, Bool.and_eq_false_iff, List.all_eq_false, List.all_cons, List.all_nil, Bool.and_true, hself]
  simp only [Blocked, Bool.not_eq_true]

end Stack

namespace DatagramSocket

variable {py : Interpreter} {d d' : DatagramSocket} {data : Bytes} {n : Nat} {c : SendCall} {now : Time}

/-- The packet that waits in that place never leaves, whatever happens. -/
def NeverSent (py : Interpreter) (d : DatagramSocket) (hop : Bytes) (k : Nat) : Prop :=
  ∀ es, ((following py).run (d, .waiting hop k) es).2 ≠ .sent

/-- 0 means that the datagram is never sent, and its length that it was sent or waits to be. -/
structure Truthful (py : Interpreter) (d d' : DatagramSocket) (data : Bytes) (n : Nat) : Prop where
  zero : n = 0 → ¬ d.stack.Emitted d'.stack data ∧
    ∀ hop k, d.stack.ParkedAt d'.stack data hop k → NeverSent py d' hop k
  all : n = data.length → d.stack.Emitted d'.stack data ∨ ∃ hop k, d.stack.ParkedAt d'.stack data hop k

/-- The answer can be right. `send` of nothing gives up before it looks. -/
def Decided (py : Interpreter) (d : DatagramSocket) (now : Time) : SendCall → Prop
  | .send data => data ≠ [] ∧ ∀ ip port, d.peer = some (ip, port) → d.stack.Decided ip data now
  | .sendto data host _ => ∀ ip, host.toBytes py = .ok ip → d.stack.Decided ip data now

/-! ### One packet in the runs of a socket -/

theorem performsQuietly_udpSend (d : DatagramSocket) (data ip : Bytes) (port : Nat) (now : Time) :
    PerformsQuietly d.stack.toInterface (d.udpSend data ip port now).2.stack.toInterface :=
  d.stack.performsQuietly_udpSend data ip port (d.boundPort.getD 0) now

theorem performsQuietly_checkOpen {α : Type} {r : Except SocketError α × DatagramSocket}
    (h : PerformsQuietly d.stack.toInterface r.2.stack.toInterface) :
    PerformsQuietly d.stack.toInterface (d.checkOpen r).2.stack.toInterface := by
  unfold checkOpen
  split_ifs
  · exact .refl _
  · exact h

theorem performsQuietly_step {e : DatagramEvent} (h : d.arpOf e = none) :
    PerformsQuietly d.stack.toInterface (d.step py e).stack.toInterface := by
  cases e with
  | bind port handler =>
    apply performsQuietly_checkOpen
    split_ifs <;> exact .refl _
  | connect host port =>
    apply performsQuietly_checkOpen
    split <;> exact .refl _
  | call c now =>
    cases c with
    | send data =>
      apply performsQuietly_checkOpen
      split_ifs
      · exact .refl _
      · split
        · exact .refl _
        · exact performsQuietly_udpSend d _ _ _ _
    | sendto data host port =>
      apply performsQuietly_checkOpen
      split
      · exact .refl _
      · exact performsQuietly_udpSend d _ _ _ _
  | close =>
    rw [step, close]
    cases d.boundPort <;> split_ifs <;> exact .refl _
  | stack e =>
    cases e with
    | event e => exact d.stack.performsQuietly_step h
    | sendIpv4 packet now => exact .one _ (e := .send packet now) rfl

theorem step_of_arp (py : Interpreter) {e : DatagramEvent} {frame : EthernetFrame} (h : d.arpOf e = some frame) :
    ∃ now stats, (d.step py e).stack.toInterface =
      { (d.stack.toInterface.handleArp frame now).2 with stats := stats } := by
  cases e with
  | stack e =>
    cases e with
    | event e => exact d.stack.step_of_arp h
    | sendIpv4 => cases h
  | _ => cases h

theorem addressed (h : (datagramSocket py).Reachable d) : d.stack.Addressed := by
  refine Machine.ReachableBy.induction (datagramSocket py) (P := fun d => d.stack.Addressed) ?_ ?_ h
  · rintro d ⟨cfg, rfl⟩
    exact Stack.addressed_new cfg
  · intro d e _ hd _
    have hperforms : Performs d.stack.toInterface (d.step py e).stack.toInterface := by
      cases harp : d.arpOf e with
      | none => exact (performsQuietly_step harp).performs
      | some frame =>
        obtain ⟨now, stats, heq⟩ := step_of_arp py harp
        rw [heq]
        exact (Performs.one _ (.arp frame now)).trans (.count _ stats)
    exact hd.of_eq (hperforms.induction (P := fun j => j.addresses = d.stack.addresses)
      (fun j e hj => (j.addresses_perform e).trans hj) rfl)

theorem follows_next (py : Interpreter) {front : List IPv4Packet} {hop : Bytes} {t : DatagramSocket × Place}
    (h : t.1.stack.Follows front hop t.2) (e : DatagramEvent) :
    ((following py).next t e).1.stack.Follows front hop ((following py).next t e).2 := by
  change (t.1.step py e).stack.Follows front hop (t.2.after _ _ _)
  cases harp : t.1.arpOf e with
  | none => exact h.quiet (performsQuietly_step harp)
  | some frame =>
    obtain ⟨now, stats, heq⟩ := step_of_arp py harp
    exact h.arp heq

/-- A packet that has just been parked never leaves exactly when it, or one before it, cannot be serialised. -/
theorem neverSent_iff (py : Interpreter) (hd : d.stack.Addressed) {front : List IPv4Packet} {hop : Bytes} {k : Nat}
    (hlength : hop.length = 4) (hfront : d.stack.parked hop = front) (hk : k + 1 = front.length) :
    NeverSent py d hop k ↔ front.all IPv4Packet.encodes = false := by
  have hfollows : d.stack.Follows front hop (.waiting hop k) := ⟨rfl, hk, by rw [hfront]⟩
  constructor
  · intro hnever
    obtain ⟨raw, frame, harp, hreply⟩ := Stack.exists_reply hd hlength
    have hlost := follows_next py (t := (d, .waiting hop k)) hfollows (.stack (.event (.frame raw 0 0)))
    have hnot := hnever [.stack (.event (.frame raw 0 0))]
    have hanswer : (d.arpOf (.stack (.event (.frame raw 0 0)))).bind EthernetFrame.repliedBy = some hop := by
      rw [arpOf, Stack.arpOf, harp]
      exact hreply
    have hplace : ((following py).next (d, .waiting hop k) (.stack (.event (.frame raw 0 0)))).2 =
        if k < (d.step py (.stack (.event (.frame raw 0 0)))).stack.departed.length - d.stack.departed.length then
          .sent else .lost := by
      change Place.after _ _ _ (.waiting hop k) = _
      rw [hanswer, Place.after, if_pos rfl]
    rw [Machine.run_cons, Machine.run_nil, hplace] at hnot
    rw [hplace] at hlost
    split_ifs at hnot hlost
    · exact absurd rfl hnot
    · exact hlost
  · intro hblocked es hsent
    have hrun := (following py).run_induction
      (P := fun t : DatagramSocket × Place => t.1.stack.Follows front hop t.2)
      (fun t e ht _ => follows_next py ht e) (s := (d, .waiting hop k)) hfollows ((following py).meets_true _ es)
    rw [hsent] at hrun
    rw [Interface.Follows, hblocked] at hrun
    cases hrun.1

/-! ### One call -/

theorem truthful_udpSend_iff {ip : Bytes} {port : Nat} (hd : d.stack.Addressed) (hd' : d'.stack.Addressed)
    (h : d.udpSend data ip port now = (.ok n, d')) : Truthful py d d' data n ↔ d.stack.Decided ip data now := by
  obtain ⟨sent, hn, hsent⟩ : ∃ sent, n = (if sent then data.length else 0) ∧
      d.stack.udpSend data ip port (d.boundPort.getD 0) now = (.ok sent, d'.stack) := by
    unfold udpSend at h
    generalize d.stack.udpSend data ip port (d.boundPort.getD 0) now = r at h
    obtain ⟨result, stack⟩ := r
    cases result with
    | error e => cases h
    | ok sent =>
      cases h
      exact ⟨sent, rfl, rfl⟩
  obtain ⟨packet, rfl, hcarries, hencodes, houtcome⟩ := Stack.udpSend_ok hd hsent
  cases houtcome with
  | left target hdeparted hparks =>
    rw [Stack.decided_of_not_parks hparks]
    have hemitted : d.stack.Emitted d'.stack data := ⟨target, packet, hcarries, hdeparted⟩
    constructor
    · rintro htruthful rfl
      exact (htruthful.zero hn).1 hemitted
    · intro hne
      refine ⟨fun hzero => ?_, fun _ => .inl hemitted⟩
      rw [hn, if_pos rfl, List.length_eq_zero_iff] at hzero
      exact absurd hzero hne
  | parked hop hlength hparks hdeparted hqueue =>
    have hself : d'.stack.parked hop = d.stack.parked hop ++ [packet] := (hqueue hop).trans (if_pos rfl)
    have hparked : d.stack.ParkedAt d'.stack data hop (d.stack.parked hop).length := ⟨rfl, packet, hcarries, hself⟩
    rw [Stack.decided_of_parks hparks, ← Stack.blocked_iff hencodes,
      ← neverSent_iff py (k := (d.stack.parked hop).length) hd' hlength hself (by simp)]
    constructor
    · exact fun htruthful => (htruthful.zero hn).2 hop _ hparked
    · intro hnever
      refine ⟨fun _ => ⟨Stack.not_emitted hdeparted, fun a k ha => ?_⟩, fun _ => .inr ⟨hop, _, hparked⟩⟩
      by_cases hhop : a = hop
      · subst hhop
        rw [ha.1]
        exact hnever
      · exact absurd ha (Stack.not_parkedAt ((hqueue a).trans (if_neg hhop)) k)
  | dropped hdeparted hqueue hparks =>
    rw [Stack.decided_of_not_parks hparks]
    constructor
    · rintro htruthful rfl
      rcases htruthful.all hn with hemitted | ⟨hop, k, hparked⟩
      · exact Stack.not_emitted hdeparted hemitted
      · exact Stack.not_parkedAt (hqueue hop) k hparked
    · intro hne
      refine ⟨fun _ => ⟨Stack.not_emitted hdeparted, fun hop k hparked => ?_⟩, fun hall => ?_⟩
      · exact absurd hparked (Stack.not_parkedAt (hqueue hop) k)
      · rw [hn, if_neg Bool.false_ne_true, eq_comm, List.length_eq_zero_iff] at hall
        exact absurd hall hne

/-- In every state that a socket and its stack can be in, the answer of every call that returns is right exactly
when it could be told. -/
theorem send_truthful_iff (hd : (datagramSocket py).Reachable d) (h : d.call py now c = (.ok n, d')) :
    Truthful py d d' c.data n ↔ Decided py d now c := by
  have hstep : d' = d.step py (.call c now) := (congrArg Prod.snd h).symm
  have hd' : (datagramSocket py).Reachable d' := by
    rw [hstep]
    exact hd.step (datagramSocket py) (.call c now) trivial
  have hopen : ∀ {r : Except SocketError Nat × DatagramSocket}, d.checkOpen r = (.ok n, d') → r = (.ok n, d') := by
    intro r hr
    unfold checkOpen at hr
    split_ifs at hr
    · cases hr
    · exact hr
  cases c with
  | send data =>
    have hsend := hopen h
    split_ifs at hsend with hnil
    · cases hsend
      refine iff_of_false (fun htruthful => ?_) fun hdecided => hdecided.1 hnil
      rcases htruthful.all (by rw [SendCall.data, hnil]; rfl) with hemitted | ⟨hop, k, hparked⟩
      · exact Stack.not_emitted rfl hemitted
      · exact Stack.not_parkedAt rfl k hparked
    · cases hpeer : d.peer with
      | none =>
        rw [hpeer] at hsend
        cases hsend
      | some peer =>
        rw [hpeer] at hsend
        rw [SendCall.data, truthful_udpSend_iff (addressed hd) (addressed hd') hsend]
        constructor
        · refine fun hdecided => ⟨hnil, fun ip port hsome => ?_⟩
          obtain rfl := Option.some.inj (hpeer.symm.trans hsome)
          exact hdecided
        · exact fun hdecided => hdecided.2 peer.1 peer.2 hpeer
  | sendto data host port =>
    have hsendto := hopen h
    cases hhost : host.toBytes py with
    | error e =>
      rw [hhost] at hsendto
      cases hsendto
    | ok ip =>
      rw [hhost] at hsendto
      rw [SendCall.data, truthful_udpSend_iff (addressed hd) (addressed hd') hsendto]
      constructor
      · intro hdecided ip' hip
        obtain rfl := Except.ok.inj (hhost.symm.trans hip)
        exact hdecided
      · exact fun hdecided => hdecided ip hhost

/-! ### A datagram to an unknown neighbour -/

/-- A socket bound to a port. -/
def boundSocket : DatagramSocket :=
  (datagramSocket asciiInterpreter).run { stack := .new Stack.host } [.bind 5000 1]

/-- Three bytes to the neighbour. -/
def hello : SendCall := .sendto [1, 2, 3] (.bytes [10, 0, 0, 2]) 7

/-- The packet that is made of them. -/
def helloPacket : IPv4Packet :=
  { src := [10, 0, 0, 1], dst := [10, 0, 0, 2], protocol := PROTO_UDP, identification := 1
    payload := [19, 136, 0, 7, 0, 11, 212, 68, 1, 2, 3] }

/-- The neighbour says where it is. -/
def neighbourReplies : DatagramEvent :=
  .stack (.event (.frame ((sampleArp 2).toBytes.toOption.getD []) 0 0))

/-- The socket once the neighbour is known. -/
def knowingSocket : DatagramSocket :=
  (datagramSocket asciiInterpreter).run boundSocket [.call hello 0, neighbourReplies]

theorem reachable_boundSocket : (datagramSocket asciiInterpreter).Reachable boundSocket :=
  (Machine.ReachableBy.init (datagramSocket asciiInterpreter) ⟨Stack.host, rfl⟩).run (datagramSocket asciiInterpreter)
    ((datagramSocket asciiInterpreter).meets_true _ _)

theorem truthful_hello :
    Truthful asciiInterpreter knowingSocket (knowingSocket.call asciiInterpreter 0 hello).2 [1, 2, 3] 3 := by
  have hreach : (datagramSocket asciiInterpreter).Reachable knowingSocket :=
    reachable_boundSocket.run (datagramSocket asciiInterpreter) ((datagramSocket asciiInterpreter).meets_true _ _)
  have hresult : (knowingSocket.call asciiInterpreter 0 hello).1 = .ok 3 := by decide +kernel
  refine (send_truthful_iff (c := hello) hreach (Prod.ext hresult rfl)).mpr fun ip hip => ?_
  obtain rfl := Except.ok.inj hip
  rw [Stack.Decided, if_neg (by decide)]
  intro hop hparks
  have hnext : knowingSocket.stack.nextHop [10, 0, 0, 2] = .ok [10, 0, 0, 2] := by decide +kernel
  obtain rfl := Except.ok.inj (hnext.symm.trans hparks.next)
  exact absurd hparks.unknown (by decide +kernel)

/-- The first datagram to the neighbour is answered with 0, and so is the same one again; the reply sends both. -/
theorem zero_sent_twice :
    (datagramSocket asciiInterpreter).Reachable boundSocket ∧
      (boundSocket.call asciiInterpreter 0 hello).1 = .ok 0 ∧
      ¬ Truthful asciiInterpreter boundSocket (boundSocket.call asciiInterpreter 0 hello).2 [1, 2, 3] 0 ∧
      ((datagramSocket asciiInterpreter).run boundSocket
        [.call hello 0, .call hello 0, neighbourReplies]).stack.departed.map (fun e => e.2.payload.drop 8) =
          [[1, 2, 3], [1, 2, 3]] := by
  refine ⟨reachable_boundSocket, by decide +kernel, fun htruthful => ?_, by decide +kernel⟩
  have hparked : boundSocket.stack.ParkedAt (boundSocket.call asciiInterpreter 0 hello).2.stack [1, 2, 3]
      [10, 0, 0, 2] 0 := by
    refine ⟨by decide +kernel, helloPacket, ⟨rfl, { srcPort := 5000, dstPort := 7, payload := [1, 2, 3] }, rfl, ?_⟩, ?_⟩
    · decide +kernel
    · decide +kernel
  exact (htruthful.zero rfl).2 _ _ hparked [neighbourReplies] (by decide +kernel)

end DatagramSocket

end MiniTcp
