import MiniTcp.Lan.Stream
import MiniTcp.Net.Tcp.Lifecycle

/-!
# Who is at the other end

A connection learns the initial number of its peer from a SYN, and on a wire that corrupts nothing a SYN is what
another stack has sent. So behind every connection that got past its own SYN there is a connection of the stack with
the remote address, with the same ports, whose initial number is the one that was learnt (`peers_exist`).
-/

namespace MiniTcp

open TCPConnection

namespace Endpoint

variable {p : Endpoint} {e : Event} {es : List Event}

theorem introduced_step (he : e.Resumes) (h : (p.step e).conn.Introduced) :
    p.conn.Introduced ∧ (p.step e).conn.irs = p.conn.irs ∨
      p.conn.state = .synSent ∧ ∃ seg, e.inbound = some seg ∧ seg.isSyn = true ∧ (p.step e).conn.irs = seg.seq := by
  by_cases hno : ∀ seg, e.inbound = some seg → p.conn.takesSyn seg = false
  · obtain ⟨hterms, hintroduced⟩ := sameTerms_step he.1 he.2 hno
    exact .inl ⟨hintroduced h, hterms.irs⟩
  · obtain ⟨seg, hin, htakes⟩ : ∃ seg, e.inbound = some seg ∧ p.conn.takesSyn seg = true := by
      simpa using hno
    cases e with
    | segment seg' srcIp draw now =>
      obtain rfl := Option.some.inj hin
      have hsyn := htakes
      simp only [takesSyn, Bool.and_eq_true, Bool.or_eq_true, decide_eq_true_eq, Bool.not_eq_true'] at hsyn
      obtain ⟨⟨hsyn, hrst⟩, hlisten | ⟨hsent, -⟩⟩ := hsyn
      · -- a listener keeps listening
        rw [step, put_conn, onSegment_of_listen srcIp draw now hlisten hrst, introduced_iff] at h
        exact absurd hlisten h.2.1
      · obtain ⟨hterms, -⟩ := onSegment_takesSyn srcIp draw now hsent htakes
        exact .inr ⟨hsent, seg', rfl, hsyn, hterms.irs⟩
    | _ => cases hin

theorem introduced_run (hes : ∀ e ∈ es, e.Resumes) (h : (endpoint.run p es).conn.Introduced) :
    p.conn.Introduced ∧ (endpoint.run p es).conn.irs = p.conn.irs ∨
      p.conn.state = .synSent ∧ ∃ e ∈ es, ∃ seg, e.inbound = some seg ∧ seg.isSyn = true ∧
        (endpoint.run p es).conn.irs = seg.seq := by
  induction es generalizing p with
  | nil => exact .inl ⟨h, rfl⟩
  | cons e es ih =>
    obtain ⟨he, hrest⟩ := List.forall_mem_cons.mp hes
    rcases ih hrest h with ⟨hmet, hirs⟩ | ⟨hsent, e', he', hsyn⟩
    · rcases introduced_step he hmet with ⟨hbefore, hsame⟩ | ⟨hsent, seg, hin, hsyn, hnumber⟩
      · exact .inl ⟨hbefore, hirs.trans hsame⟩
      · exact .inr ⟨hsent, e, List.mem_cons_self, seg, hin, hsyn, hirs.trans hnumber⟩
    · exact .inr ⟨(step_unopened he.1 he.2).2 hsent, e', List.mem_cons_of_mem e he', hsyn⟩

theorem iss_run (hes : ∀ e ∈ es, e.Resumes) (p : Endpoint) : (endpoint.run p es).conn.iss = p.conn.iss := by
  induction es generalizing p with
  | nil => rfl
  | cons e es ih =>
    obtain ⟨he, hrest⟩ := List.forall_mem_cons.mp hes
    exact (ih hrest _).trans (step_iss he.2)

theorem announces_run (hes : ∀ e ∈ es, e.Resumes) (h : Announces p) : Announces (endpoint.run p es) := by
  induction es generalizing p with
  | nil => exact h
  | cons e es ih =>
    obtain ⟨he, hrest⟩ := List.forall_mem_cons.mp hes
    exact ih hrest (h.step he.1 he.2)

/-- The endpoint of a listener. -/
structure Peerless (p : Endpoint) : Prop where
  unsent : p.conn.state ≠ .synSent
  unmet : ¬ p.conn.Introduced

theorem Peerless.run (h : p.Peerless) (hes : ∀ e ∈ es, e.Resumes) : (endpoint.run p es).Peerless := by
  induction es generalizing p with
  | nil => exact h
  | cons e es ih =>
    obtain ⟨he, hrest⟩ := List.forall_mem_cons.mp hes
    refine ih ⟨fun hsent => h.unsent ((step_unopened he.1 he.2).2 hsent), fun hmet => ?_⟩ hrest
    rcases introduced_step he hmet with ⟨hbefore, -⟩ | ⟨hsent, -⟩
    · exact h.unmet hbefore
    · exact h.unsent hsent

end Endpoint

theorem TableEvent.resumes_of_calls {e : TableEvent} {i : ConnId} {call : Event} (h : e.Calls i call) :
    call.Resumes := by
  refine ⟨?_, ne_connect_of_calls h⟩
  rintro rfl
  cases e <;> first | exact h.elim | cases h.2 | cases h

/-! ### The objects of a stack -/

/-- The SYNs that an object has sent carry its number, and a listener has no peer. -/
def Tables.Announced (t : Tables) : Prop :=
  ∀ slot ∈ t.slots, Announces slot.ep ∧ (slot.role.isListener = true → slot.ep.Peerless)

theorem Tables.Announced.follows {ip : Bytes} {t u : Tables} {e : TableEvent} (h : t.Announced)
    (hfollows : Follows ip t u e) : u.Announced := by
  intro slot' hmem
  obtain ⟨i, hi⟩ := List.mem_iff_getElem?.mp hmem
  rcases hfollows.cases hi with ⟨slot, es, hslot, hrole, hep, hes⟩ | ⟨-, hborn⟩
  · have hresumes := fun call hcall => TableEvent.resumes_of_calls (hes call hcall)
    obtain ⟨hannounces, hpeerless⟩ := h slot (List.mem_of_getElem? hslot)
    rw [hep, hrole]
    exact ⟨Endpoint.announces_run hresumes hannounces, fun hlistener => (hpeerless hlistener).run hresumes⟩
  · cases hborn with
    | listener port backlog =>
      refine ⟨⟨?_, ?_, fun _ => ⟨rfl, rfl⟩⟩, fun _ => ⟨?_, ?_⟩⟩
      · exact fun x hx => absurd hx List.not_mem_nil
      · exact fun y hy => absurd hy List.not_mem_nil
      · exact TcpState.noConfusion
      · rw [introduced_iff]
        exact fun hmet => hmet.2.1 rfl
    | active _ _ _ draw now _ hrole hep =>
      rw [hep, hrole]
      exact ⟨announces_connect _ draw now, fun hlistener => by cases hlistener⟩
    | child hparent hchild =>
      refine ⟨?_, fun hlistener => by cases hlistener⟩
      rw [onSegment_snd] at hchild
      split_ifs at hchild
      obtain rfl := Option.some.inj hchild
      exact announces_passive _ _ _ _

namespace Stack

variable {s : Stack} {e : StackEvent} {i : ConnId} {slot' : Slot}

theorem announced (h : stack.Reachable s) : s.toTables.Announced := by
  refine Machine.ReachableBy.induction stack (P := fun s => s.toTables.Announced) (fun s hs => ?_)
    (fun s e hreach hs _ => hs.follows ((sound hreach).follows e)) h
  obtain ⟨cfg, rfl⟩ := hs
  exact fun slot hmem => absurd hmem List.not_mem_nil

/-- A connection whose peer is introduced knew it before with the same number, or has just received its SYN. -/
theorem introduced_cases (h : stack.Reachable s) (hslot' : (s.step e).slots[i]? = some slot')
    (hmet : slot'.ep.conn.Introduced) :
    (∃ slot, s.slots[i]? = some slot ∧ slot.ep.conn.Introduced ∧ slot'.ep.conn.cfg = slot.ep.conn.cfg ∧
        slot'.ep.conn.irs = slot.ep.conn.irs) ∨
      ∃ packet seg, s.Receives e packet seg ∧ seg.isSyn = true ∧ slot'.ep.conn.irs = seg.seq ∧
        slot'.ep.conn.cfg.key = (s.ip, seg.dstPort, packet.src, seg.srcPort) := by
  rcases ((sound h).follows e).cases hslot' with ⟨slot, es, hslot, hrole, hep, hes⟩ | ⟨-, hborn⟩
  · have hresumes := fun call hcall => TableEvent.resumes_of_calls (hes call hcall)
    have hcfg : slot'.ep.conn.cfg = slot.ep.conn.cfg := by rw [hep, Tables.cfg_run]
    rw [hep] at hmet
    rcases Endpoint.introduced_run hresumes hmet with ⟨hbefore, hirs⟩ | ⟨hsent, call, hcall, seg, hin, hsyn, hirs⟩
    · exact .inl ⟨slot, hslot, hbefore, hcfg, hep ▸ hirs⟩
    · right
      cases call with
      | segment seg' src draw now =>
        obtain rfl := Option.some.inj hin
        obtain ⟨packet, hreceives, -, hlookup⟩ := receives_of_calls (hes _ hcall)
        refine ⟨packet, seg', hreceives, hsyn, hep ▸ hirs, ?_⟩
        rcases meantFor_of_lookup (keyed h) hlookup hslot with hkey | ⟨hlistener, -⟩
        · have hlocal := (keyed h).localIp slot (List.mem_of_getElem? hslot)
          have hdst : slot.ep.conn.cfg.localIp = packet.dst := congrArg (·.1) hkey
          rw [hcfg, hkey, ← hdst, hlocal]
        · have hpeerless := (announced h slot (List.mem_of_getElem? hslot)).2 hlistener
          exact absurd hsent hpeerless.unsent
      | _ => cases hin
  · right
    cases hview : s.view e with
    | segment id seg src draw now =>
      rw [hview] at hborn
      cases hborn with
      | child hparent hchild =>
        obtain ⟨packet, cfg, hreceives, hsyn, rfl, hcfg⟩ := adopts h hview hparent hchild
        refine ⟨packet, seg, hreceives, hsyn, ?_, hcfg⟩
        change ((TCPConnection.new cfg).beginPassiveOpen seg draw now).irs = seg.seq
        rw [beginPassiveOpen_eq]
        rfl
    | tcpConnect remoteIp remotePort port draw now =>
      rw [hview] at hborn
      cases hborn with
      | active _ _ _ _ _ _ _ hep =>
        rw [hep, Endpoint.step_connect, introduced_iff] at hmet
        exact absurd rfl hmet.2.2
    | tcpListen port backlog =>
      rw [hview] at hborn
      cases hborn with
      | listener =>
        rw [introduced_iff] at hmet
        exact absurd rfl hmet.2.1
    | _ =>
      rw [hview] at hborn
      cases hborn

end Stack

/-! ### The network -/

namespace Lan

variable {n : Nat} {cfg : Fin n → StackConfig} {fault : FaultProfile} {L : Lan n} {a i : Fin n} {key : ConnKey}
  {e : StackEvent} {irs : SeqNo}

/-- The stack with the remote address has a connection with the same ports, to the local address or to everyone, whose
initial number is `irs`. -/
def Known (cfg : Fin n → StackConfig) (L : Lan n) (i : Fin n) (key : ConnKey) (irs : SeqNo) : Prop :=
  ∃ j ≠ i, (cfg j).ip = key.2.2.1 ∧ ∃ dst k q, (dst = key.1 ∨ dst = IP_BROADCAST) ∧
    (L.host j).Holds (key.2.2.1, key.2.2.2, dst, key.2.1) k q ∧ q.conn.iss = irs

theorem Known.act (h : Known cfg L i key irs) (hgood : L.Good cfg fault) (a : Fin n) (e : StackEvent)
    (draws : Nat → Draws) : Known cfg (L.act a e draws) i key irs := by
  obtain ⟨j, hj, hip, dst, k, q, hdst, hq, hiss⟩ := h
  by_cases hja : j = a
  · subst hja
    obtain ⟨es, hq', hes⟩ := hq.step (hgood.host j) e
    rw [← host_act] at hq'
    refine ⟨j, hj, hip, dst, k, _, hdst, hq', ?_⟩
    rw [Endpoint.iss_run fun call hcall => TableEvent.resumes_of_calls (hes call hcall)]
    exact hiss
  · refine ⟨j, hj, hip, dst, k, q, hdst, ?_, hiss⟩
    rw [L.host_act_of_ne hja]
    exact hq

theorem known_of_syn (hgood : L.Good cfg fault) (hclean : fault.corrupt.1 = 0)
    (he : ∀ raw draw now, e = .frame raw draw now → raw ∈ L.wire.held a) {packet : IPv4Packet} {seg : TCPSegment}
    (hreceives : (L.host a).Receives e packet seg) (hsyn : seg.isSyn = true) :
    Known cfg L a ((L.host a).ip, seg.dstPort, packet.src, seg.srcPort) seg.seq := by
  obtain ⟨hdst, j, hj, hsrc, honly | ⟨k, q, hq, x, hx, csum, rfl⟩⟩ := hgood.arrival hclean he hreceives
  · rw [honly.noSyn] at hsyn
    cases hsyn
  · refine ⟨j, hj, hsrc.symm, packet.dst, k, q, hdst, hq, ?_⟩
    obtain ⟨slot, hslot, rfl, -⟩ := hq
    have hannounces := (Stack.announced (hgood.host j) slot (List.mem_of_getElem? hslot)).1
    exact (hannounces.sent x hx hsyn).1.symm

/-- Every peer that is introduced is known. -/
def Met (cfg : Fin n → StackConfig) (L : Lan n) : Prop :=
  ∀ i, ∀ slot ∈ (L.host i).slots, slot.ep.conn.Introduced → Known cfg L i slot.ep.conn.cfg.key slot.ep.conn.irs

theorem Met.act (h : Met cfg L) (hgood : L.Good cfg fault) (hclean : fault.corrupt.1 = 0)
    (he : ∀ raw draw now, e = .frame raw draw now → raw ∈ L.wire.held a) (draws : Nat → Draws) :
    Met cfg (L.act a e draws) := by
  intro i slot' hmem hmet
  by_cases hia : i = a
  · subst hia
    rw [host_act] at hmem
    obtain ⟨k, hk⟩ := List.mem_iff_getElem?.mp hmem
    rcases Stack.introduced_cases (hgood.host i) hk hmet with
      ⟨slot, hslot, hbefore, hcfg, hirs⟩ | ⟨packet, seg, hreceives, hsyn, hirs, hkey⟩
    · rw [hcfg, hirs]
      exact (h i slot (List.mem_of_getElem? hslot) hbefore).act hgood i e draws
    · rw [hkey, hirs]
      exact (known_of_syn hgood hclean he hreceives hsyn).act hgood i e draws
  · rw [L.host_act_of_ne hia] at hmem
    exact (h i slot' hmem hmet).act hgood a e draws

/-- On a wire that corrupts nothing, there is a peer behind every connection that knows the number of its peer: the
stack with the remote address has, or had and has closed, a connection with the same ports the other way round, to this
stack or to everyone, which began with this very number. -/
theorem peers_exist (h : (lan cfg fault).Reachable L) (hclean : fault.corrupt.1 = 0) {k : ConnId} {p : Endpoint}
    (hp : (L.host i).Holds key k p) (hmet : p.conn.Introduced) : Known cfg L i key p.conn.irs := by
  have hall : Met cfg L := by
    refine reachable_induction (P := Met cfg) (fun L hstart => ?_) (fun L M hhost _ hL => ?_)
      (fun L i e draws hgood hL he => hL.act hgood hclean he draws) h
    · obtain ⟨names, rfl⟩ := hstart
      exact fun i slot hmem => absurd hmem List.not_mem_nil
    · unfold Met Known at hL ⊢
      rw [hhost]
      exact hL
  obtain ⟨slot, hslot, rfl, rfl⟩ := hp
  exact hall i slot (List.mem_of_getElem? hslot) hmet

theorem peers_exist_talked : ∃ p, (talked.host 0).Holds talkKey 0 p ∧ Known pair talked 0 talkKey p.conn.irs := by
  have hp : (talked.host 0).slots[0]?.map (fun slot => (slot.ep.conn.cfg.key, slot.ep.conn.state)) =
      some (talkKey, .established) := by
    decide +kernel
  obtain ⟨slot, hslot, heq⟩ := Option.map_eq_some_iff.mp hp
  obtain ⟨hkey, hstate⟩ := Prod.mk.inj heq
  have hholds : (talked.host 0).Holds talkKey 0 slot.ep := ⟨slot, hslot, rfl, hkey⟩
  have hmet : slot.ep.conn.Introduced := introduced_iff.mpr (by simp [hstate])
  exact ⟨slot.ep, hholds, peers_exist (reachable_talked.reachable (lan pair doubling)) (by decide) hholds hmet⟩

end Lan

end MiniTcp
