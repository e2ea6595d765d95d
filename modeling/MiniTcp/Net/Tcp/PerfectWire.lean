import MiniTcp.Net.Tcp.SimultaneousOpen
import MiniTcp.Net.Tcp.Smooth

/-!
# Two connections on a perfect wire

Nothing is lost and nothing is reordered: a segment handed out by one side is at the end of the line to the
other, and deliveries take the first one. An ACK that repeats `snd_una` while data is in flight is counted
whatever else the segment is. For a window update after `recv()` that is how the source means it, so the
third of them starts a fast retransmission although the wire lost nothing (`perfect_wire_retransmits`).

Segments with data count as well, which is written nowhere. Nothing else does: what arrives is the next in
order and is acknowledged once, at once or after the delay, so an ordinary ACK never repeats the number of
the ACK or window update before it (`untroubled_iff`).
-/

namespace MiniTcp

open TCPConnection

/-- The two sides, and the segments under way to each. -/
structure PerfectWire where
  peer : Bool → Endpoint
  line : Bool → List Carried

/-- A call at one of the two sides, the delivery of the first segment under way to it, or its timers. -/
inductive WireCall where
  | send (x : Bool) (data : Bytes) (now : Time)
  | recv (x : Bool) (maxBytes : Nat) (now : Time)
  | deliver (x : Bool) (srcIp : Option Bytes) (draw : SeqNo) (now : Time)
  | tick (x : Bool) (now : Time)

namespace PerfectWire

variable {n n₀ : PerfectWire} {x : Bool}

/-- A call at `x`, after which `rest` is still under way to it; what it sends is under way to the other. -/
def advance (n : PerfectWire) (x : Bool) (e : Event) (update : Bool) (rest : List Carried) : PerfectWire :=
  let p := (n.peer x).step e
  { peer := Function.update n.peer x p
    line := Function.update (Function.update n.line x rest) (!x)
      (n.line (!x) ++ (p.conn.sent.drop (n.peer x).conn.sent.length).map (⟨·, update⟩)) }

def call (n : PerfectWire) : WireCall → PerfectWire
  | .send x data now => n.advance x (.send data now) false (n.line x)
  | .recv x maxBytes now => n.advance x (.recv maxBytes now) true (n.line x)
  | .deliver x srcIp draw now =>
    match n.line x with
    | y :: rest => n.advance x (.segment y.seg srcIp draw now) false rest
    | [] => n
  | .tick x now => n.advance x (.tick now) false (n.line x)

/-- Two established connections with nothing under way and nothing outstanding, each expecting what the
other sends next, with room for it, and nothing counted against either. -/
structure Joined (n : PerfectWire) : Prop where
  reachable : ∀ x, endpoint.Reachable (n.peer x)
  established : ∀ x, (n.peer x).conn.state = .established
  line : ∀ x, n.line x = []
  expected : ∀ x, (n.peer x).conn.rcvNxt = (n.peer !x).conn.sndNxt
  acknowledged : ∀ x, (n.peer x).conn.sndUna = (n.peer x).conn.sndNxt
  parked : ∀ x, (n.peer x).conn.recvQueue.ooo.data = []
  offered : ∀ x, (n.peer x).conn.Offered ∧ (n.peer x).conn.peerWindow ≠ 0
  room : ∀ x, (n.peer x).conn.advertisedWindow ≠ 0
  mss : ∀ x, (n.peer x).conn.cfg.mss ≤ 0xFFFF
  reno : ∀ x, (n.peer x).conn.reno.state ≠ .fastRecovery ∧ (n.peer x).conn.reno.duplicateAcks = 0

end PerfectWire

/-- All runs of two joined connections. -/
def wire : Machine PerfectWire WireCall where
  init := PerfectWire.Joined
  next := PerfectWire.call

namespace PerfectWire

variable {n n₀ : PerfectWire} {x : Bool} {e : Event} {u : Bool} {rest : List Carried}

@[simp] theorem advance_peer_self : (n.advance x e u rest).peer x = (n.peer x).step e :=
  Function.update_self ..

@[simp] theorem advance_peer_other : (n.advance x e u rest).peer (!x) = n.peer (!x) :=
  Function.update_of_ne (Bool.not_ne_self x) ..

@[simp] theorem advance_line_self : (n.advance x e u rest).line x = rest :=
  (Function.update_of_ne (Bool.not_ne_self x).symm ..).trans (Function.update_self ..)

@[simp] theorem advance_line_other : (n.advance x e u rest).line (!x) =
    n.line (!x) ++ (((n.peer x).step e).conn.sent.drop (n.peer x).conn.sent.length).map (⟨·, u⟩) :=
  Function.update_self ..

/-! ### Conditions on a run -/

/-- No retransmission timer and no persist timer expires, and no window that is advertised afterwards is
zero. -/
def Undisturbed (n : PerfectWire) (e : WireCall) : Prop :=
  (∀ x, ((n.call e).peer x).conn.advertisedWindow ≠ 0) ∧
    match e with
    | .tick x now => due (n.peer x).conn.retransmitAt now = false ∧ due (n.peer x).conn.persistAt now = false
    | _ => True

/-- No data arrives with an ACK that repeats `snd_una` while something is in flight. -/
def NoDataRepeat (n : PerfectWire) : WireCall → Prop
  | .deliver x _ _ _ => ∀ y ∈ (n.line x).head?, y.seg.payload ≠ [] →
      ¬ (y.seg.ack = (n.peer x).conn.sndUna ∧ 0 < (n.peer x).conn.sendQueue.inFlight)
  | _ => True

/-- No window update arrives as the third to repeat `snd_una`. -/
def NoThirdUpdate (n : PerfectWire) : WireCall → Prop
  | .deliver x _ _ _ => ∀ y ∈ (n.line x).head?, y.update = true → ¬ ThirdRepeat (n.peer x).conn y.seg
  | _ => True

instance (n : PerfectWire) : (e : WireCall) → Decidable (n.Undisturbed e)
  | .tick .. => inferInstanceAs (Decidable (_ ∧ _ ∧ _))
  | .send .. | .recv .. | .deliver .. => inferInstanceAs (Decidable (_ ∧ True))

instance (n : PerfectWire) : (e : WireCall) → Decidable (n.NoDataRepeat e)
  | .deliver x _ _ _ => inferInstanceAs (Decidable (∀ y ∈ (n.line x).head?, y.seg.payload ≠ [] → ¬ (_ ∧ _)))
  | .send .. | .recv .. | .tick .. => .isTrue trivial

instance (n : PerfectWire) : (e : WireCall) → Decidable (n.NoThirdUpdate e)
  | .deliver x _ _ _ => inferInstanceAs (Decidable (∀ y ∈ (n.line x).head?, y.update = true → ¬ ThirdRepeat _ _))
  | .send .. | .recv .. | .tick .. => .isTrue trivial

/-- Neither side is in recovery, and neither has resent anything since `n₀`. -/
def Untroubled (n₀ n : PerfectWire) : Prop :=
  ∀ x, (n.peer x).conn.reno.state ≠ .fastRecovery ∧
    (n.peer x).conn.retransmissions = (n₀.peer x).conn.retransmissions

/-! ### The invariant -/

/-- Each side hangs together with the other, and only ordinary segments are under way. -/
def Wired (n : PerfectWire) : Prop :=
  ∀ x, Linked (n.peer x).conn (n.peer !x).conn (n.peer x).conn.owes (n.line x) (n.line x) (n.line !x) ∧
    ∀ y ∈ n.line x, y.seg.Plain

theorem wired_of_joined (h : n.Joined) (hcap : ∀ x, (n.peer x).conn.cfg.receiveCapacity < 2 ^ 31) :
    n.Wired := by
  intro x
  have hflow : ∀ x, Flow (n.peer x).conn.sndUna (n.peer x).conn.sndNxt (n.peer !x).conn.rcvNxt
      (n.peer x).conn.counted (n.peer !x).conn.owes [] [] := by
    intro x
    have hexpected := h.expected (!x)
    rw [Bool.not_not] at hexpected
    rw [hexpected, h.acknowledged x, counted, (h.reno x).2]
    exact ⟨by rw [Serial.gap_self]; decide, rfl, trivial, List.pairwise_singleton _ _, trivial,
      fun _ hlast => by cases hlast⟩
  have hbasic := basic_of_reachable (h.reachable x)
  have hcompact := Endpoint.compact_of_reachable (h.reachable x)
  have hcapacity := hcompact.limit
  rw [h.line, h.line]
  refine ⟨⟨?_, hflow x, ?_⟩, fun y hy => absurd hy List.not_mem_nil⟩
  · exact {
      established := h.established x
      buffered := by
        rw [h.acknowledged x, Serial.gap_self]
        exact Nat.zero_le _
      offered := (h.offered x).1
      open_ne := (h.offered x).2
      mss := hbasic.mss.trans_le (h.mss x)
      peerMss := hbasic.peerMss
      within := hcompact.accounted.within
      parked := h.parked x
      capacity_pos := hcapacity ▸ (n.peer x).conn.cfg.receiveCapacity_pos
      capacity_lt := hcapacity ▸ hcap x
      room := h.room x }
  · have hback := hflow (!x)
    rwa [Bool.not_not] at hback

theorem wired_advance (h : n.Wired) {segs : List TCPSegment} (hrest : ∀ y ∈ rest, y ∈ n.line x)
    (hsent : ((n.peer x).step e).conn.sent = (n.peer x).conn.sent ++ segs) (hplain : ∀ y ∈ segs, y.Plain)
    (hlinked : Linked ((n.peer x).step e).conn (n.peer !x).conn ((n.peer x).step e).conn.owes rest rest
      (n.line (!x) ++ segs.map (⟨·, u⟩))) : (n.advance x e u rest).Wired := by
  have hout : (n.advance x e u rest).line (!x) = n.line (!x) ++ segs.map (⟨·, u⟩) := by
    rw [advance_line_other, hsent, List.drop_left]
  refine Crossing.forall_peer x ?_ ?_
  · rw [advance_peer_self, advance_peer_other, advance_line_self, hout]
    exact ⟨hlinked, fun y hy => (h x).2 y (hrest y hy)⟩
  · rw [Bool.not_not, advance_peer_self, advance_peer_other, advance_line_self, hout]
    refine ⟨hlinked.swap (h !x).1.smooth, fun y hy => ?_⟩
    rcases List.mem_append.mp hy with hold | hnew
    · exact (h !x).2 y hold
    · obtain ⟨z, hz, rfl⟩ := List.mem_map.mp hnew
      exact hplain z hz

theorem untroubled_calm (h : Untroubled n₀ n) (hcalm : Calm (n.peer x).conn ((n.peer x).step e).conn) :
    Untroubled n₀ (n.advance x e u rest) := by
  refine Crossing.forall_peer x ?_ ?_
  · rw [advance_peer_self, hcalm.reno, hcalm.retransmissions]
    exact h x
  · rw [advance_peer_other]
    exact h (!x)

/-! ### Deliveries -/

/-- What arrives is processed: an established connection takes the ACK of an ordinary segment in its window. -/
theorem takesAck_head {y : Carried} {acks toPeer : List Carried} {c d : TCPConnection} {owed : Bool}
    (h : Linked c d owed acks (y :: rest) toPeer) (hy : y.seg.Plain) : c.takesAck y.seg = true := by
  unfold takesAck
  rw [h.smooth.established, h.acceptable hy, hy.isAck, hy.isRst, hy.isSyn]
  rfl

/-- With no data that repeats `snd_una`, the third repetition is a window update: an ordinary ACK would be the
first of its number. -/
theorem update_of_thirdRepeat {y : Carried} {data toPeer : List Carried} {c d : TCPConnection} {owed : Bool}
    (h : Linked c d owed (y :: rest) data toPeer)
    (hdata : y.seg.payload ≠ [] → ¬ (y.seg.ack = c.sndUna ∧ 0 < c.sendQueue.inFlight))
    (hthird : ThirdRepeat c y.seg) : y.update = true := by
  obtain ⟨-, hack, hflight, hcount⟩ := hthird
  by_contra hordinary
  have hnil : y.seg.payload = [] := not_not.mp fun hne => hdata hne ⟨hack, hflight⟩
  have hcounted : c.counted = true := by rw [counted, hcount]; rfl
  exact h.outward.ordinary hnil (Bool.eq_false_iff.mpr hordinary) hcounted hack

/-- A delivery leaves the two sides untroubled exactly when it is not the third window update. -/
theorem untroubled_deliver_iff {y : Carried} (h : n.Wired) (hn : Untroubled n₀ n) (hline : n.line x = y :: rest)
    (hdata : y.seg.payload ≠ [] → ¬ (y.seg.ack = (n.peer x).conn.sndUna ∧ 0 < (n.peer x).conn.sendQueue.inFlight))
    (srcIp : Option Bytes) (draw : SeqNo) (now : Time) :
    Untroubled n₀ (n.advance x (.segment y.seg srcIp draw now) false rest) ↔
      (y.update = true → ¬ ThirdRepeat (n.peer x).conn y.seg) := by
  obtain ⟨hlinked, hplain⟩ := h x
  rw [hline] at hlinked
  obtain ⟨hreno, hretx⟩ := hn x
  have hiff : (((n.peer x).conn.onSegment y.seg srcIp draw now).1.reno.state ≠ .fastRecovery ∧
      ((n.peer x).conn.onSegment y.seg srcIp draw now).1.retransmissions = (n.peer x).conn.retransmissions) ↔
        ¬ ThirdRepeat (n.peer x).conn y.seg :=
    onSegment_untroubled_iff srcIp draw now hlinked.smooth.synchronised hreno hlinked.smooth.open_ne
  have hupdate : (y.update = true → ¬ ThirdRepeat (n.peer x).conn y.seg) ↔ ¬ ThirdRepeat (n.peer x).conn y.seg :=
    ⟨fun hno hthird => hno (update_of_thirdRepeat hlinked hdata hthird) hthird, fun hno _ => hno⟩
  rw [hupdate, ← hiff]
  constructor
  · intro htrouble
    have hx := htrouble x
    rw [advance_peer_self] at hx
    exact ⟨hx.1, hx.2.trans hretx.symm⟩
  · rintro ⟨hstate, hsame⟩
    refine Crossing.forall_peer x ?_ ?_
    · rw [advance_peer_self]
      exact ⟨hstate, hsame.trans hretx⟩
    · rw [advance_peer_other]
      exact hn (!x)

theorem wired_deliver {y : Carried} (h : n.Wired) (hn : Untroubled n₀ n) (hline : n.line x = y :: rest)
    (hdata : y.seg.payload ≠ [] → ¬ (y.seg.ack = (n.peer x).conn.sndUna ∧ 0 < (n.peer x).conn.sendQueue.inFlight))
    (hupdate : y.update = true → ¬ ThirdRepeat (n.peer x).conn y.seg) (srcIp : Option Bytes) (draw : SeqNo)
    (now : Time) (hroom : ((n.peer x).step (.segment y.seg srcIp draw now)).conn.advertisedWindow ≠ 0) :
    (n.advance x (.segment y.seg srcIp draw now) false rest).Wired := by
  obtain ⟨hlinked, hplain⟩ := h x
  rw [hline] at hlinked hplain
  have hy := hplain y List.mem_cons_self
  have hthird : ¬ (y.seg.ack = (n.peer x).conn.sndUna ∧ 0 < (n.peer x).conn.sendQueue.inFlight ∧
      (n.peer x).conn.reno.duplicateAcks = 2) := by
    intro hrepeat
    have hthree : ThirdRepeat (n.peer x).conn y.seg := ⟨takesAck_head hlinked hy, hrepeat⟩
    exact hupdate (update_of_thirdRepeat hlinked hdata hthree) hthree
  obtain ⟨segs, hsent, hout, hkept⟩ := hlinked.onSegment hy (hn x).1 hthird hdata srcIp draw now hroom
  exact wired_advance (e := .segment y.seg srcIp draw now) h (fun z hz => hline ▸ List.mem_cons_of_mem y hz) hsent
    hout hkept

/-! ### The run -/

theorem call_spec {c : WireCall} (h : n.Wired) (hn : Untroubled n₀ n) (hc : n.Undisturbed c)
    (hdata : n.NoDataRepeat c) :
    (Untroubled n₀ (n.call c) ↔ n.NoThirdUpdate c) ∧ (n.NoThirdUpdate c → (n.call c).Wired) := by
  have hcalm : ∀ {x : Bool} {e : Event} {u : Bool} {segs : List TCPSegment},
      Calm (n.peer x).conn ((n.peer x).step e).conn →
      ((n.peer x).step e).conn.sent = (n.peer x).conn.sent ++ segs → (∀ y ∈ segs, y.Plain) →
      Linked ((n.peer x).step e).conn (n.peer !x).conn ((n.peer x).step e).conn.owes (n.line x) (n.line x)
        (n.line (!x) ++ segs.map (⟨·, u⟩)) →
      (Untroubled n₀ (n.advance x e u (n.line x)) ↔ True) ∧ (True → (n.advance x e u (n.line x)).Wired) :=
    fun hcalm hsent hplain hlinked => ⟨iff_true_intro (untroubled_calm hn hcalm),
      fun _ => wired_advance h (fun _ hy => hy) hsent hplain hlinked⟩
  cases c with
  | send x data now =>
    have hsent : ∃ segs, ((n.peer x).step (.send data now)).conn.sent = (n.peer x).conn.sent ++ segs ∧
        (∀ y ∈ segs, y.Plain) ∧ Linked ((n.peer x).step (.send data now)).conn (n.peer !x).conn
          ((n.peer x).step (.send data now)).conn.owes (n.line x) (n.line x)
          (n.line (!x) ++ segs.map (⟨·, false⟩)) := by
      simp only [Endpoint.step]
      cases hsend : (n.peer x).conn.send data now with
      | error err =>
        refine ⟨[], (List.append_nil _).symm, fun y hy => absurd hy List.not_mem_nil, ?_⟩
        rw [List.map_nil, List.append_nil]
        exact (h x).1
      | ok r =>
        obtain ⟨segs, hsent, hplain, htimer, hlinked⟩ := (h x).1.send hsend
        rw [owes, ← htimer] at hlinked
        exact ⟨segs, hsent, hplain, hlinked⟩
    obtain ⟨segs, hsent, hplain, hlinked⟩ := hsent
    exact hcalm (calm_send _ data now) hsent hplain hlinked
  | recv x maxBytes now =>
    have hroom := hc.1 x
    simp only [call, advance_peer_self] at hroom
    obtain ⟨segs, hsent, hplain, hlinked⟩ := (h x).1.recv maxBytes now hroom
    exact hcalm (calm_recv _ maxBytes now) hsent hplain hlinked
  | tick x now =>
    obtain ⟨segs, hsent, hplain, hlinked⟩ := (h x).1.onTick hc.2.1 hc.2.2
    exact hcalm (calm_tick hc.2.1 hc.2.2) hsent hplain hlinked
  | deliver x srcIp draw now =>
    have hroom := hc.1 x
    simp only [call, NoThirdUpdate, NoDataRepeat] at hroom hdata ⊢
    cases hline : n.line x with
    | nil => simpa using ⟨hn, h⟩
    | cons y rest =>
      rw [hline] at hroom hdata
      simp only [List.head?_cons, Option.mem_some_iff, forall_eq', advance_peer_self] at hroom hdata ⊢
      exact ⟨untroubled_deliver_iff h hn hline hdata srcIp draw now,
        fun hupdate => wired_deliver h hn hline hdata hupdate srcIp draw now hroom⟩

/-- On a wire that loses and reorders nothing, with receive capacities below half the sequence space, in every
run in which no retransmission or persist timer expires, no advertised window reaches zero and no data arrives
that repeats `snd_una` while something is in flight: neither side enters recovery and neither resends anything,
as long as no window update is the third to repeat `snd_una` with data in flight; and such an update ends that. -/
theorem untroubled_iff (h : n₀.Joined) (hcap : ∀ x, (n₀.peer x).conn.cfg.receiveCapacity < 2 ^ 31)
    {es : List WireCall} (hes : wire.Meets Undisturbed n₀ es) (hdata : wire.Meets NoDataRepeat n₀ es) :
    wire.Always (Untroubled n₀) n₀ es ↔ wire.Meets NoThirdUpdate n₀ es :=
  wire.always_iff_meets (Q := Wired) (E := fun n c => n.Undisturbed c ∧ n.NoDataRepeat c)
    (fun _ _ hq hp he hok => (call_spec hq hp he.1 he.2).2 hok)
    (fun _ _ hq hp he => (call_spec hq hp he.1 he.2).1)
    ((wire.meets_and n₀ es).mpr ⟨hes, hdata⟩) (wired_of_joined h hcap) fun x => ⟨(h.reno x).1, rfl⟩

/-! ### A client and a server -/

/-- The SYN+ACK that answers `openingSyn`. -/
def openingSynAck : TCPSegment :=
  { srcPort := 1000, dstPort := 1000, seq := 700, ack := 101, flags := FLAG_SYN ||| FLAG_ACK,
    window := 65535, options := { mss := some 1460, sackPermitted := true } }

/-- A client (`false`) and the child of a listener (`true`) after the handshake. -/
def afterHandshake (server : Config) : PerfectWire where
  peer x := bif x then endpoint.run (.passive server Endpoint.openingSyn 0 0) [.segment Endpoint.openingAck none 0 0]
    else endpoint.run (.new (.plain 100)) [.connect 0 0, .segment openingSynAck none 0 0]
  line _ := []

theorem reachable_afterHandshake (server : Config) (x : Bool) :
    endpoint.Reachable ((afterHandshake server).peer x) := by
  cases x
  · exact (Machine.ReachableBy.init endpoint (.inl ⟨_, rfl⟩)).run endpoint (endpoint.meets_true _ _)
  · exact (Machine.ReachableBy.init endpoint (.inr ⟨server, Endpoint.openingSyn, 0, 0, by decide, by decide, rfl⟩)).run
      endpoint (endpoint.meets_true _ _)

/-- A server that delays its ACKs, and one whose receive queue covers half the sequence space. -/
def patientServer : Config := { Config.plain 700 with delayedAck := true }

def wideServer : Config := { Config.plain 700 with
  receiveCapacity := 2 ^ 31
  receiveCapacity_pos := by decide }

theorem joined_patientServer : (afterHandshake patientServer).Joined where
  reachable := reachable_afterHandshake _
  established := by decide
  line := fun _ => rfl
  expected := by decide
  acknowledged := by decide
  parked := by decide
  offered := fun x => ⟨⟨by revert x; decide, by revert x; decide⟩, by revert x; decide⟩
  room := by decide
  mss := by decide
  reno := by decide

theorem joined_wideServer : (afterHandshake wideServer).Joined where
  reachable := reachable_afterHandshake _
  established := by decide
  line := fun _ => rfl
  expected := by decide
  acknowledged := by decide
  parked := by decide
  offered := fun x => ⟨⟨by revert x; decide, by revert x; decide⟩, by revert x; decide⟩
  room := by decide
  mss := by decide
  reno := by decide

/-- Data in both directions, two window updates, and an ACK that waited for its timer. -/
def quietExchange : List WireCall :=
  [.send false [1, 2, 3, 4] 0, .deliver true none 0 0, .tick true 1, .deliver false none 0 1, .send true [7, 8] 1,
    .deliver false none 0 1, .send false [5] 1, .recv true 1 1, .recv true 1 1, .deliver true none 0 1,
    .deliver false none 0 1, .deliver false none 0 1]

theorem untroubled_quietExchange :
    (afterHandshake patientServer).Joined ∧ wire.Meets Undisturbed (afterHandshake patientServer) quietExchange ∧
      wire.Meets NoDataRepeat (afterHandshake patientServer) quietExchange ∧
      wire.Always (Untroubled (afterHandshake patientServer)) (afterHandshake patientServer) quietExchange :=
  ⟨joined_patientServer, by decide +kernel, by decide +kernel,
    (untroubled_iff joined_patientServer (by decide +kernel) (by decide +kernel) (by decide +kernel)).mpr
      (by decide +kernel)⟩

/-- A client sends four bytes, which arrive and are acknowledged, and then a fifth. Before it arrives the
other side reads three times. -/
def threeReads : List WireCall :=
  [.send false [1, 2, 3, 4] 0, .deliver true none 0 0, .tick true 1, .deliver false none 0 1, .send false [5] 1,
    .recv true 1 1, .recv true 1 1, .recv true 1 1, .deliver false none 0 1, .deliver false none 0 1,
    .deliver false none 0 1]

/-- Both sides send, and three segments of the server are under way before the client's data arrives. -/
def bothWays : List WireCall :=
  [.send false [1, 2] 0, .send true [7] 0, .send true [8] 0, .send true [9] 0, .deliver false none 0 0,
    .deliver false none 0 0, .deliver false none 0 0]

/-- Three segments, each of which a server refuses whose window reaches half the sequence space ahead. -/
def threeSends : List WireCall :=
  [.send false [1] 0, .send false [2] 0, .send false [3] 0, .deliver true none 0 0, .deliver true none 0 0,
    .deliver true none 0 0, .deliver false none 0 0, .deliver false none 0 0, .deliver false none 0 0]

/-- After the run the client is in recovery and has resent something. -/
def Retransmits (n : PerfectWire) (es : List WireCall) : Prop :=
  wire.Meets Undisturbed n es ∧ ((wire.run n es).peer false).conn.reno.state = .fastRecovery ∧
    (n.peer false).conn.retransmissions < ((wire.run n es).peer false).conn.retransmissions

/-- Three window updates repeat `snd_una` while the fifth byte is in flight, and the client goes into recovery
and sends that byte again, on a wire that delivered everything so far exactly once and in order. Three segments
with data do the same, and so do three ACKs of a server that refuses everything. -/
theorem perfect_wire_retransmits :
    (afterHandshake patientServer).Joined ∧ Retransmits (afterHandshake patientServer) threeReads ∧
      Retransmits (afterHandshake patientServer) bothWays ∧
      (afterHandshake wideServer).Joined ∧ Retransmits (afterHandshake wideServer) threeSends :=
  ⟨joined_patientServer, ⟨by decide +kernel, by decide +kernel, by decide +kernel⟩,
    ⟨by decide +kernel, by decide +kernel, by decide +kernel⟩, joined_wideServer,
    ⟨by decide +kernel, by decide +kernel, by decide +kernel⟩⟩

end PerfectWire

end MiniTcp
