import ChatLoad.Duration
import ChatLoad.Wire.Inbound

/-! The far side of the network: what can go wrong on the way there, what a peer can do to a
connection, and peers as machines that react to what they read. -/

namespace ChatLoad

/-- Connections are numbered in the order in which they are opened. -/
abbrev ConnId := Nat

inductive IoError
  | refused
  | unreachable
  | reset
  | brokenPipe
  | other (text : String)
  deriving Repr, DecidableEq

namespace IoError

def message : IoError → String
  | refused => "Connection refused (os error 111)"
  | unreachable => "Network is unreachable (os error 101)"
  | reset => "Connection reset by peer (os error 104)"
  | brokenPipe => "Broken pipe (os error 32)"
  | other text => text

end IoError

inductive Reach
  | accepts
  | refuses
  | unreachable
  /-- no answer at all -/
  | silent
  deriving Repr, DecidableEq

/-- Once nobody listens, what would be accepted is refused. -/
def Reach.withoutListener : Reach → Reach
  | accepts => refuses
  | other => other

/-- What a peer does to a connection, or to all that come later. -/
inductive Action
  | deliver (conn : ConnId) (bytes : Bytes)
  /-- ends the peer's sending side -/
  | finish (conn : ConnId)
  | reset (conn : ConnId)
  | stopListening
  deriving Repr, DecidableEq

/-- An action and how long it takes the peer to come to it. -/
structure Reaction where
  action : Action
  after : Duration := 0
  deriving Repr, DecidableEq

/-- A peer with memory `σ`. It reacts to new connections and to bytes; of a connection that the
client closes it only takes note. -/
structure Peer (σ : Type) where
  accept : ConnId → σ → σ × List Reaction
  hear : ConnId → Bytes → σ → σ × List Reaction
  lose : ConnId → σ → σ

def Peer.quiet : Peer Unit where
  accept _ memory := (memory, [])
  hear _ _ memory := (memory, [])
  lose _ memory := memory

end ChatLoad
