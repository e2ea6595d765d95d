/-!
# `minitcp/net/tcp/state.py`: the eleven TCP states
-/

namespace MiniTcp

inductive TcpState where
  | closed | listen | synSent | synReceived | established | finWait1 | finWait2 | closeWait | closing
  | lastAck | timeWait
  deriving DecidableEq, Repr

namespace TcpState

/-- The name the source gives the state. -/
def name : TcpState → String
  | closed => "CLOSED"
  | listen => "LISTEN"
  | synSent => "SYN-SENT"
  | synReceived => "SYN-RECEIVED"
  | established => "ESTABLISHED"
  | finWait1 => "FIN-WAIT-1"
  | finWait2 => "FIN-WAIT-2"
  | closeWait => "CLOSE-WAIT"
  | closing => "CLOSING"
  | lastAck => "LAST-ACK"
  | timeWait => "TIME-WAIT"

def isClosed : TcpState → Bool
  | closed => true
  | _ => false

/-- Both sides have exchanged initial sequence numbers. -/
def isSynchronised : TcpState → Bool
  | established | finWait1 | finWait2 | closeWait | closing | lastAck | timeWait => true
  | closed | listen | synSent | synReceived => false

theorem ne_of_isSynchronised {s : TcpState} (h : s.isSynchronised = true) :
    s ≠ .closed ∧ s ≠ .listen ∧ s ≠ .synSent ∧ s ≠ .synReceived := by
  cases s <;> simp [isSynchronised] at h ⊢

theorem isSynchronised_of_ne {s : TcpState} (h1 : s ≠ .closed) (h2 : s ≠ .listen) (h3 : s ≠ .synSent)
    (h4 : s ≠ .synReceived) : s.isSynchronised = true := by
  cases s <;> simp_all [isSynchronised]

end TcpState

end MiniTcp
