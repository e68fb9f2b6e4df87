import ChatLoad.Peer.Listening

/-! A peer that takes note of what it sees and answers AUTH frames as it was told. -/

namespace ChatLoad

/-- A frame to be sent: raw bytes, or a frame whose request id may be that of the AUTH it answers. -/
inductive Line
  | raw (bytes : Bytes)
  | frame (code : UInt8) (requestId : Option UInt64) (body : Bytes)
  deriving Repr, DecidableEq

namespace Line

def bytes (echo : UInt64) : Line → Bytes
  | raw bytes => bytes
  | frame code requestId body => Frame.encodeCode code (requestId.getD echo) body

end Line

/-- What a peer does to a connection once it has said its lines. -/
inductive Exit
  | stay
  | finish
  | reset
  deriving Repr, DecidableEq

structure Cue where
  lines : List Line
  exit : Exit := .stay
  deriving Repr, DecidableEq

namespace Cue

def acknowledge : Cue where
  lines := [.frame Command.ack.code none []]

def actions (cue : Cue) (conn : ConnId) (echo : UInt64) : List Action :=
  let said := cue.lines.map fun line => Action.deliver conn (line.bytes echo)
  match cue.exit with
  | .stay => said
  | .finish => said ++ [.finish conn]
  | .reset => said ++ [.reset conn]

end Cue

inductive Sight
  | frame (conn : ConnId) (frame : Frame)
  | closed (conn : ConnId)
  deriving Repr, DecidableEq

structure Script where
  buffers : Buffers := []
  cues : List Cue := []
  seen : List Sight := []
  deriving Repr, DecidableEq

namespace Script

def meet (script : Script) (conn : ConnId) (frame : Frame) : Script × List Action :=
  let script := { script with seen := script.seen ++ [.frame conn frame] }
  if frame.kind = .auth then
    match script.cues with
    | [] => (script, Cue.acknowledge.actions conn frame.requestId)
    | cue :: cues => ({ script with cues }, cue.actions conn frame.requestId)
  else (script, [])

def meetAll (script : Script) (conn : ConnId) : List Frame → Script × List Action
  | [] => (script, [])
  | frame :: frames =>
      let (script, first) := script.meet conn frame
      let (script, later) := script.meetAll conn frames
      (script, first ++ later)

def peer : Peer Script where
  accept _ script := ({ script with buffers := script.buffers ++ [[]] }, [])
  hear conn bytes script :=
    let (frames, buffers) := script.buffers.hear conn bytes
    let (script, actions) := meetAll { script with buffers } conn frames
    (script, actions.map ({ action := · }))
  lose conn script := { script with seen := script.seen ++ [.closed conn] }

end Script

end ChatLoad
