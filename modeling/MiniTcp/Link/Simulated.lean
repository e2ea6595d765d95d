import Mathlib.Data.List.Perm.Basic
import Mathlib.Logic.Function.Basic
import MiniTcp.Lib.Machine
import MiniTcp.Util.Flip

/-!
# `minitcp/link/simulated.py`: the virtual wire

`VirtualWire` is the wire with the links of the program, on the wire or not, under numbers in place of object
identities. What the random generator gives during one transmission is the argument `draws`, and
`time.monotonic()` is the field `now`, which never goes back.

`log` has every transmission that found a peer, and `received` what a link handed out; the code reads neither.
-/

namespace MiniTcp

abbrev LinkId := Nat

/-- `LinkError` with its text. -/
abbrev LinkError := String

abbrev Probability := {p : ℚ // 0 ≤ p ∧ p ≤ 1}

/-- What `random()` gives. -/
abbrev Draw := {x : ℚ // 0 ≤ x ∧ x < 1}

theorem probability_zero : (0 : ℚ) ≤ 0 ∧ (0 : ℚ) ≤ 1 := ⟨le_rfl, zero_le_one⟩

theorem draw_zero : (0 : ℚ) ≤ 0 ∧ (0 : ℚ) < 1 := ⟨le_rfl, zero_lt_one⟩

theorem delay_zero : (0 : ℚ) ≤ 0 := le_rfl

/-- `chance and random() < chance` -/
def Probability.strikes (chance : Probability) (draw : Draw) : Bool := chance.1 ≠ 0 ∧ draw.1 < chance.1

/-- Probability knobs describing how badly a wire misbehaves, with what `__post_init__` checks. -/
structure FaultProfile where
  loss : Probability := ⟨0, probability_zero⟩
  duplicate : Probability := ⟨0, probability_zero⟩
  reorder : Probability := ⟨0, probability_zero⟩
  corrupt : Probability := ⟨0, probability_zero⟩
  /-- `delay_ms` -/
  low : ℚ := 0
  high : ℚ := 0
  low_nonneg : 0 ≤ low := by exact delay_zero
  low_le_high : low ≤ high := by exact delay_zero

/-- What the generator gives during one transmission, each value where the code asks for it; a number from
`range(n)` is taken modulo `n`. -/
structure Draws where
  loss : Draw := ⟨0, draw_zero⟩
  corrupt : Draw := ⟨0, draw_zero⟩
  index : Nat := 0
  bit : Nat := 0
  delay : Draw := ⟨0, draw_zero⟩
  reorder : Draw := ⟨0, draw_zero⟩
  duplicate : Draw := ⟨0, draw_zero⟩

/-- `_flip_one_bit` -/
def flipOneBit (frame : Bytes) (index bit : Nat) : Bytes :=
  if frame = [] then frame else flipBit frame (index % frame.length) (bit % 8)

/-- How far behind a reordered frame is pushed. -/
def REORDER_DELAY : Time := 2 / 1000

namespace FaultProfile

variable (fault : FaultProfile) (draws : Draws)

def lost : Bool := fault.loss.strikes draws.loss

/-- The frame as it goes over the wire. -/
def carried (frame : Bytes) : Bytes :=
  if fault.corrupt.strikes draws.corrupt then flipOneBit frame draws.index draws.bit else frame

/-- `uniform(low, high)` in seconds, and the extra delay of a frame that others overtake. -/
def delay : Time :=
  let delay := if fault.high > 0 then (fault.low + (fault.high - fault.low) * draws.delay.1) / 1000 else 0
  if fault.reorder.strikes draws.reorder then delay + REORDER_DELAY else delay

def copies : Nat := if fault.duplicate.strikes draws.duplicate then 2 else 1

end FaultProfile

/-- One frame given to a wire with other links on it. -/
structure Transmission where
  sender : LinkId
  frame : Bytes
  draws : Draws
  peers : List LinkId
  time : Time

/-- One endpoint. -/
structure SimulatedLink where
  name : String := ""
  hasWire : Bool := false
  isUp : Bool := true
  queue : List Bytes := []
  /-- Every frame that the link has handed out, oldest first. -/
  received : List Bytes := []

/-- A shared medium, and the links of the program. -/
structure VirtualWire where
  fault : FaultProfile := {}
  links : List LinkId := []
  pending : List (Time × LinkId × Bytes) := []
  transmitted : Nat := 0
  dropped : Nat := 0
  duplicated : Nat := 0
  corrupted : Nat := 0
  endpoint : LinkId → SimulatedLink := fun _ => {}
  now : Time := 0
  log : List Transmission := []

namespace VirtualWire

variable (w : VirtualWire)

def modifyLink (id : LinkId) (f : SimulatedLink → SimulatedLink) : VirtualWire :=
  { w with endpoint := Function.update w.endpoint id (f (w.endpoint id)) }

/-! ### Membership -/

def attach (id : LinkId) : VirtualWire :=
  { w.modifyLink id fun link => { link with hasWire := true } with links := w.links ++ [id] }

/-- The first entry of the link goes, if there is one. -/
def detach (id : LinkId) : VirtualWire := { w with links := w.links.erase id }

/-! ### Data path -/

def enqueue (id : LinkId) (frame : Bytes) : VirtualWire :=
  w.modifyLink id fun link => { link with queue := link.queue ++ [frame] }

/-- The body of the loop over copies and peers. -/
def carry (delay : Time) (frame : Bytes) (peer : LinkId) : VirtualWire :=
  if delay ≤ 0 then w.enqueue peer frame
  else { w with pending := w.pending ++ [(w.now + delay, peer, frame)] }

/-- The other live endpoints. -/
def peersOf (sender : LinkId) : List LinkId :=
  w.links.filter fun id => id ≠ sender ∧ (w.endpoint id).isUp = true

/-- Carry a frame from `sender` to every other live endpoint. -/
def transmit (sender : LinkId) (frame : Bytes) (draws : Draws) : VirtualWire :=
  let peers := w.peersOf sender
  let w := { w with transmitted := w.transmitted + 1 }
  if peers = [] then w
  else
    let transmission : Transmission :=
      { sender := sender, frame := frame, draws := draws, peers := peers, time := w.now }
    let w := { w with log := w.log ++ [transmission] }
    if w.fault.lost draws then { w with dropped := w.dropped + 1 }
    else
      let carried := w.fault.carried draws frame
      let w := if w.fault.corrupt.strikes draws.corrupt then { w with corrupted := w.corrupted + 1 } else w
      let delay := w.fault.delay draws
      let copies := w.fault.copies draws
      let w := if copies = 2 then { w with duplicated := w.duplicated + 1 } else w
      (List.replicate copies peers).flatten.foldl (fun w peer => w.carry delay carried peer) w

/-- Deliver every frame whose scheduled arrival time has passed. -/
def pump : VirtualWire :=
  let due := w.pending.filter (·.1 ≤ w.now)
  let w := { w with pending := w.pending.filter (·.1 > w.now) }
  due.foldl (fun w item => w.enqueue item.2.1 item.2.2) w

def resetStats : VirtualWire := { w with transmitted := 0, dropped := 0, duplicated := 0, corrupted := 0 }

/-! ### The calls of a link -/

def sendFrame (id : LinkId) (frame : Bytes) (draws : Draws) : Except LinkError VirtualWire :=
  let link := w.endpoint id
  if !link.hasWire then .error s!"link {link.name} is not attached to a wire"
  else if !link.isUp then .error s!"link {link.name} is down"
  else .ok (w.transmit id frame draws)

/-- `_queue.get_nowait()` -/
def take (id : LinkId) : Option Bytes × VirtualWire :=
  match (w.endpoint id).queue with
  | [] => (none, w)
  | frame :: queue =>
    (some frame, w.modifyLink id fun link => { link with queue := queue, received := link.received ++ [frame] })

/-- One round of the loop of `recv_frame`. -/
def recvFrame (id : LinkId) : Option Bytes × VirtualWire :=
  (if (w.endpoint id).hasWire then w.pump else w).take id

/-- Remove and return every queued frame. -/
def drain (id : LinkId) : List Bytes × VirtualWire :=
  ((w.endpoint id).queue,
    w.modifyLink id fun link => { link with queue := [], received := link.received ++ link.queue })

def close (id : LinkId) : VirtualWire :=
  let w := w.modifyLink id fun link => { link with isUp := false }
  if (w.endpoint id).hasWire then w.detach id else w

end VirtualWire

/-! ### Runs -/

/-- A call of a link or of the wire, a link that is switched off or on, and the clock. -/
inductive WireEvent where
  | attach (id : LinkId)
  | detach (id : LinkId)
  | setUp (id : LinkId) (up : Bool)
  | send (id : LinkId) (frame : Bytes) (draws : Draws)
  | pump
  | recv (id : LinkId)
  | drain (id : LinkId)
  | close (id : LinkId)
  | resetStats
  | advance (time : Time)

namespace VirtualWire

variable (w : VirtualWire)

/-- What one event does; a call that raises does nothing. -/
def step : WireEvent → VirtualWire
  | .attach id => w.attach id
  | .detach id => w.detach id
  | .setUp id up => w.modifyLink id fun link => { link with isUp := up }
  | .send id frame draws => (w.sendFrame id frame draws).toOption.getD w
  | .pump => w.pump
  | .recv id => (w.recvFrame id).2
  | .drain id => (w.drain id).2
  | .close id => w.close id
  | .resetStats => w.resetStats
  | .advance time => { w with now := max w.now time }

/-- A new wire and new links. -/
def Fresh (w : VirtualWire) : Prop :=
  ∃ (fault : FaultProfile) (names : LinkId → String),
    w = { fault := fault, endpoint := fun id => { name := names id } }

end VirtualWire

/-- All runs of a wire and its links. -/
def virtualWire : Machine VirtualWire WireEvent where
  init := VirtualWire.Fresh
  next := VirtualWire.step

@[simp] theorem virtualWire_next (w : VirtualWire) (e : WireEvent) : virtualWire.next w e = w.step e := rfl

end MiniTcp
