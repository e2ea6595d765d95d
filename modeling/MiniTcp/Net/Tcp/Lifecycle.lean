import MiniTcp.Net.Tcp.EndOfStream

/-!
# The life of a connection

Once it is open, a connection moves along the edges of the diagram in `minitcp/net/tcp/state.py`, whatever the
application, the timer and the network do. `Edge` has two kinds of arrows that the diagram does not draw: a reset,
an abort, a timeout or an early close leads from any state to CLOSED, and one segment with the FIN and the
acknowledgement of ours leads from FIN_WAIT_1 to TIME_WAIT. There is still no cycle, so a connection never comes
back to a state that it has left, and it changes its state at most six times (`lifecycle`).
-/

namespace MiniTcp

open Relation (ReflTransGen)

namespace TcpState

/-- The arrows between the states of an open connection; `bothFins` and `closed` are not in the diagram. -/
inductive Edge : TcpState → TcpState → Prop
  | synReceived : Edge .synSent .synReceived
  | synAcked : Edge .synSent .established
  | established : Edge .synReceived .established
  | finWait1 : Edge .established .finWait1
  | closeWait : Edge .established .closeWait
  | finWait2 : Edge .finWait1 .finWait2
  | closing : Edge .finWait1 .closing
  | bothFins : Edge .finWait1 .timeWait
  | finReceived : Edge .finWait2 .timeWait
  | finAcked : Edge .closing .timeWait
  | lastAck : Edge .closeWait .lastAck
  | closed {s : TcpState} (h : s ≠ .closed) : Edge s .closed

/-- How far a state is down the diagram. -/
def rank : TcpState → Nat
  | listen | synSent => 0
  | synReceived => 1
  | established => 2
  | finWait1 | closeWait => 3
  | finWait2 | closing | lastAck => 4
  | timeWait => 5
  | closed => 6

theorem Edge.rank_lt {s t : TcpState} (h : Edge s t) : s.rank < t.rank := by
  cases h with
  | closed h => cases s <;> first | exact absurd rfl h | decide
  | _ => decide

/-- Some arrows lead from one state to the other. -/
def Reaches (s t : TcpState) : Prop := ReflTransGen Edge s t

namespace Reaches

variable {s t u : TcpState}

theorem refl (s : TcpState) : Reaches s s := ReflTransGen.refl

theorem single (h : Edge s t) : Reaches s t := ReflTransGen.single h

theorem trans (h : Reaches s t) (h' : Reaches t u) : Reaches s u := ReflTransGen.trans h h'

theorem rank (h : Reaches s t) : s = t ∨ s.rank < t.rank := by
  induction h with
  | refl => exact .inl rfl
  | tail _ hedge ih =>
    rcases ih with rfl | hlt
    · exact .inr hedge.rank_lt
    · exact .inr (hlt.trans hedge.rank_lt)

theorem antisymm (h : Reaches s t) (h' : Reaches t s) : s = t := by
  rcases h.rank with heq | hlt
  · exact heq
  · rcases h'.rank with heq | hlt'
    · exact heq.symm
    · omega

end Reaches

end TcpState

open TcpState (Edge Reaches)

namespace TCPConnection

variable {c : TCPConnection}

theorem reaches_finTaken (c : TCPConnection) (now : Time) : Reaches c.state (c.finTaken now).state := by
  unfold finTaken
  dsimp only
  cases hst : c.state with
  | established => exact .single .closeWait
  | finWait1 =>
    dsimp only
    split_ifs
    · exact .single .bothFins
    · exact .single .closing
  | finWait2 => exact .single .finReceived
  | closing => exact .single .finAcked
  | _ => exact .refl _

theorem reaches_finAcknowledged (now : Time)
    (hstate : c.state = .finWait1 ∨ c.state = .closing ∨ c.state = .lastAck) :
    Reaches c.state (c.finAcknowledged now).state := by
  unfold finAcknowledged
  rcases hstate with hst | hst | hst <;> rw [hst]
  · exact .single .finWait2
  · exact .single .finAcked
  · exact .single (.closed (by decide))

theorem reaches_closed (s : TcpState) : Reaches s .closed := by
  by_cases h : s = .closed
  · rw [h]
    exact .refl _
  · exact .single (.closed h)

end TCPConnection

open TCPConnection

variable {r : Bool} {e : Event} {p q : Endpoint}

/-- One change of a call moves along the diagram, unless the call opens the connection. -/
theorem Action.reaches (ha : Action r e p q) (hlisten : e ≠ .listen) (hconnect : ∀ draw now, e ≠ .connect draw now) :
    Reaches p.conn.state q.conn.state := by
  cases ha with
  | quiet hq =>
    rw [Endpoint.put_conn, hq.state]
    exact .refl _
  | listen he => exact absurd he hlisten
  | connect he => exact absurd he (hconnect _ _)
  | simultaneousOpen _ hstate =>
    rw [Endpoint.put_conn, handleSimultaneousOpen_eq, hstate]
    exact .single .synReceived
  | establish t _ _ _ hstate =>
    rcases hstate with ⟨hst, -⟩ | ⟨hst, -⟩ <;> rw [hst]
    · exact .single .synAcked
    · exact .single .established
  | push payload n now _ _ hne =>
    rw [Endpoint.put_conn, transmitData_eq _ now hne]
    exact .refl _
  | resend now =>
    rw [Endpoint.put_conn, resend_eq]
    exact .refl _
  | fin _ hstate =>
    rcases hstate with ⟨hst, rfl⟩ | ⟨hst, rfl⟩ <;> rw [hst]
    · exact .single .finWait1
    · exact .single .lastAck
  | consumeFin => exact reaches_finTaken _ _
  | advance _ _ _ _ _ hstate => exact reaches_finAcknowledged _ hstate
  | reset => exact reaches_closed _
  | expire => exact reaches_closed _
  | abort => exact reaches_closed _
  | drop => exact reaches_closed _
  | _ => exact .refl _

/-- The call opens no connection. -/
def Event.Resumes (e : Event) : Prop := e ≠ .listen ∧ ∀ draw now, e ≠ .connect draw now

namespace Endpoint

variable {es es₁ es₂ es₃ : List Event}

theorem reaches_step (p : Endpoint) (he : e.Resumes) : Reaches p.conn.state (p.step e).conn.state :=
  keeps_step (I := fun q => Reaches p.conn.state q.conn.state) (fun _ _ hq ha => hq.trans (ha.reaches he.1 he.2))
    (.refl _)

theorem reaches_run (p : Endpoint) (hes : ∀ e ∈ es, e.Resumes) :
    Reaches p.conn.state (endpoint.run p es).conn.state := by
  induction es generalizing p with
  | nil => exact .refl _
  | cons e es ih =>
    obtain ⟨he, hrest⟩ := List.forall_mem_cons.mp hes
    exact (reaches_step p he).trans (ih _ hrest)

/-- How many calls of a run change the state. -/
def changes : Endpoint → List Event → Nat
  | _, [] => 0
  | p, e :: es => (if (p.step e).conn.state = p.conn.state then 0 else 1) + changes (p.step e) es

theorem changes_le (p : Endpoint) (hes : ∀ e ∈ es, e.Resumes) :
    p.conn.state.rank + changes p es ≤ (endpoint.run p es).conn.state.rank := by
  induction es generalizing p with
  | nil => exact le_rfl
  | cons e es ih =>
    obtain ⟨he, hrest⟩ := List.forall_mem_cons.mp hes
    have htail : (p.step e).conn.state.rank + changes (p.step e) es ≤
        (endpoint.run (p.step e) es).conn.state.rank := ih _ hrest
    change _ ≤ (endpoint.run (p.step e) es).conn.state.rank
    rw [changes]
    split_ifs with hsame
    · rw [hsame] at htail
      omega
    · have hlt := (reaches_step p he).rank.resolve_left (Ne.symm hsame)
      omega

theorem rank_le (s : TcpState) : s.rank ≤ 6 := by cases s <;> decide

/-- Whatever happens to an open connection, its state moves along the diagram. So it changes at most six times, and
what it has left it never comes back to. -/
theorem lifecycle (p : Endpoint) (hes : ∀ e ∈ es, e.Resumes) :
    Reaches p.conn.state (endpoint.run p es).conn.state ∧ changes p es ≤ 6 ∧
      ∀ es₁ es₂ es₃, es = es₁ ++ es₂ ++ es₃ → (endpoint.run p es).conn.state = (endpoint.run p es₁).conn.state →
        (endpoint.run p (es₁ ++ es₂)).conn.state = (endpoint.run p es₁).conn.state := by
  refine ⟨reaches_run p hes, ?_, ?_⟩
  · have hchanges := changes_le p hes
    have hrank := rank_le (endpoint.run p es).conn.state
    omega
  · rintro es₁ es₂ es₃ rfl hback
    obtain ⟨hfront, hlast⟩ := List.forall_mem_append.mp hes
    obtain ⟨-, hmiddle⟩ := List.forall_mem_append.mp hfront
    have hthere := reaches_run (endpoint.run p es₁) hmiddle
    have hagain := reaches_run (endpoint.run p (es₁ ++ es₂)) hlast
    rw [← Machine.run_append] at hthere hagain
    rw [hback] at hagain
    exact hagain.antisymm hthere

theorem lifecycle_bothClosed :
    Reaches .established (endpoint.run establishedClient [.close 0, .segment peerFin none 0 0]).conn.state ∧
      changes establishedClient [.close 0, .segment peerFin none 0 0] ≤ 6 :=
  have hes : ∀ e ∈ [Event.close 0, .segment peerFin none 0 0], e.Resumes := by simp [Event.Resumes]
  have h := lifecycle establishedClient hes
  ⟨h.1, h.2.1⟩

end Endpoint

end MiniTcp
