import ChatLoad.Peer.Listening
import ChatLoad.Wire.Auth
import ChatLoad.Wire.Chat

/-! A chat server. It acknowledges AUTH and chat frames, answers heartbeats, and forwards direct
messages: at once to users that are online, to others right after they have come online. -/

namespace ChatLoad

/-- How a server receives a user. All but the first two leave the user offline. -/
inductive Welcome
  | acknowledge
  /-- an ERROR frame in place of the acknowledgement -/
  | complain
  | silent
  | close
  | reset
  | badMagic
  deriving Repr, DecidableEq

structure ServerRules where
  welcomes : List (Int × Welcome) := []
  ackChats : Bool := true
  duplicateAcks : Bool := false
  answerHeartbeats : Bool := true
  forward : Bool := true
  closeAfterChats : Option Nat := none
  resetAfterChats : Option Nat := none
  deriving Repr, DecidableEq

structure Server where
  rules : ServerRules := {}
  buffers : Buffers := []
  chatCounts : List Nat := []
  online : List (Int × ConnId) := []
  /-- what waits for users that are offline -/
  stored : List (Int × Bytes) := []
  auths : Nat := 0
  heartbeats : Nat := 0
  chats : List Frame := []
  deriving Repr, DecidableEq

namespace Server

def user? (token : String) : Option Int :=
  let text := token.toList
  if "user:".toList.isPrefixOf text then (String.ofList (text.drop 5)).toInt? else none

def welcome (server : Server) (conn : ConnId) (user : Int) (answer : Bytes) :
    Server × List Action :=
  let pushes := (server.stored.filter (·.1 == user)).map fun entry => Action.deliver conn entry.2
  let entered := { server with
    online := (user, conn) :: server.online.filter (·.1 != user)
    stored := server.stored.filter (·.1 != user) }
  (entered, .deliver conn answer :: pushes)

def meetAuth (server : Server) (conn : ConnId) (frame : Frame) : Server × List Action :=
  let server := { server with auths := server.auths + 1 }
  let auth := match Auth.decode frame.body with
    | .ok auth => auth
    | .error _ => {}
  match user? auth.token with
  | none => (server, [])
  | some user =>
      match (server.rules.welcomes.lookup user).getD .acknowledge with
      | .acknowledge => server.welcome conn user (Frame.encode .ack frame.requestId [])
      | .complain => server.welcome conn user (Frame.encode .error frame.requestId [])
      | .silent => (server, [])
      | .close => (server, [.finish conn])
      | .reset => (server, [.reset conn])
      | .badMagic => (server, [.deliver conn (List.replicate Header.size 0x11)])

def meetHeartbeat (server : Server) (conn : ConnId) (frame : Frame) : Server × List Action :=
  let answer := Action.deliver conn (Frame.encode .heartbeat frame.requestId [])
  ({ server with heartbeats := server.heartbeats + 1 },
    if server.rules.answerHeartbeats then [answer] else [])

def forwardTo (server : Server) (target : Int) (body : Bytes) : Server × List Action :=
  let push := Frame.encode .singleChat 0 body
  match server.online.lookup target with
  | some conn => (server, [.deliver conn push])
  | none => ({ server with stored := server.stored ++ [(target, push)] }, [])

def meetChat (server : Server) (conn : ConnId) (frame : Frame) : Server × List Action :=
  let count := server.chatCounts.getD conn 0 + 1
  let server := { server with
    chats := server.chats ++ [frame]
    chatCounts := server.chatCounts.set conn count }
  let rules := server.rules
  let ack := Action.deliver conn (Frame.encode .ack frame.requestId [])
  let acks := if !rules.ackChats then [] else if rules.duplicateAcks then [ack, ack] else [ack]
  let target := match Chat.decode frame.body with
    | .ok chat => chat.targetId.toInt
    | .error _ => 0
  let (server, pushes) :=
    if rules.forward && frame.kind = .singleChat then server.forwardTo target frame.body
    else (server, [])
  let exits :=
    (if rules.closeAfterChats = some count then [Action.finish conn] else []) ++
      if rules.resetAfterChats = some count then [Action.reset conn] else []
  (server, acks ++ pushes ++ exits)

def meet (server : Server) (conn : ConnId) (frame : Frame) : Server × List Action :=
  match frame.kind with
  | .auth => server.meetAuth conn frame
  | .heartbeat => server.meetHeartbeat conn frame
  | .singleChat | .groupChat => server.meetChat conn frame
  | _ => (server, [])

def meetAll (server : Server) (conn : ConnId) : List Frame → Server × List Action
  | [] => (server, [])
  | frame :: frames =>
      let (server, first) := server.meet conn frame
      let (server, later) := server.meetAll conn frames
      (server, first ++ later)

def peer : Peer Server where
  accept _ server :=
    ({ server with
      buffers := server.buffers ++ [[]]
      chatCounts := server.chatCounts ++ [0] }, [])
  hear conn bytes server :=
    let (frames, buffers) := server.buffers.hear conn bytes
    let (server, actions) := meetAll { server with buffers } conn frames
    (server, actions.map ({ action := · }))
  lose conn server := { server with online := server.online.filter (·.2 != conn) }

end Server

end ChatLoad
