import ChatLoad.Client.Turn

/-! Routines: what a client is to do, act by act. An act that fails ends the routine; one that takes
time leaves the client waiting. -/

namespace ChatLoad

inductive Act
  | connect (limit : Duration)
  | authenticate
  | start (interval : Duration)
  | single (target : Int64) (content : String)
  | group (session : Int64) (content : String)
  | heartbeat
  | stop
  | pause (span : Duration)
  | pauseUntil (moment : Duration)
  deriving Repr, DecidableEq

inductive Wait
  | nothing
  | clock (moment : Duration)
  | connection (deadline limit : Duration)
  | auth (deadline : Duration)
  deriving Repr, DecidableEq

namespace Wait

/-- The moment at which the wait is over at the latest. -/
def deadline? : Wait → Option Duration
  | nothing => none
  | clock moment => some moment
  | connection deadline _ => some deadline
  | auth deadline => some deadline

end Wait

inductive Progress
  | done (succeeded : Bool)
  | waits (wait : Wait)
  deriving Repr, DecidableEq

namespace Progress

def ofAnswer (wait : Wait) : Option Bool → Progress
  | some succeeded => done succeeded
  | none => waits wait

end Progress

namespace Act

/-- When a client that begins the act at `now` is done with it at the latest. -/
def latest (settings : Settings) (now : Duration) : Act → Duration
  | connect limit => now + limit
  | authenticate => now + settings.authTimeout
  | pause span => now + span
  | pauseUntil moment => max now moment
  | _ => now

end Act

namespace Turn

variable {σ : Type}

def waitUntil (turn : Turn σ) (now moment : Duration) : Turn σ × Progress :=
  (turn, if moment ≤ now then .done true else .waits (.clock moment))

def begin (turn : Turn σ) (now : Duration) : Act → Turn σ × Progress
  | .connect limit =>
      let (turn, answer) := turn.connect now limit
      (turn, .ofAnswer (.connection (now + limit) limit) answer)
  | .authenticate =>
      let limit := turn.client.settings.authTimeout
      let (turn, answer) := turn.authenticate now
      (turn, .ofAnswer (.auth (now + limit)) answer)
  | .start interval => (turn.start now interval, .done true)
  | .single target content => (turn.single now target content, .done true)
  | .group session content => (turn.group now session content, .done true)
  | .heartbeat => (turn.heartbeat now, .done true)
  | .stop => (turn.stop, .done true)
  | .pause span => turn.waitUntil now (now + span)
  | .pauseUntil moment => turn.waitUntil now moment

/-- Begins acts until one makes the client wait, or fails, or none is left. -/
def perform (turn : Turn σ) (now : Duration) : List Act → Turn σ × List Act × Wait
  | [] => (turn, [], .nothing)
  | act :: acts =>
      match turn.begin now act with
      | (turn, .done true) => turn.perform now acts
      | (turn, .done false) => (turn, [], .nothing)
      | (turn, .waits wait) => (turn, acts, wait)

def resume (turn : Turn σ) (now : Duration) (wait : Wait) : Turn σ × Progress :=
  match wait with
  | .nothing => (turn, .done true)
  | .clock moment => turn.waitUntil now moment
  | .connection deadline limit =>
      if deadline ≤ now then (turn.connectFailed (.timeout "connect" limit), .done false)
      else (turn, .waits wait)
  | .auth deadline =>
      let (turn, answer) := turn.pollAuth now deadline
      (turn, .ofAnswer wait answer)

end Turn

structure Agent where
  client : Client
  acts : List Act := []
  wait : Wait := .nothing
  deriving Repr, DecidableEq

namespace Agent

variable {σ : Type}

def isIdle (agent : Agent) : Bool :=
  agent.acts.isEmpty && agent.wait = .nothing

/-- Runs the loops and then the routine, as far as they come at `now`. -/
def turn (agent : Agent) (now : Duration) (net : Net σ) : Agent × Net σ × List Incident :=
  let turn := ({ client := agent.client, net } : Turn σ).runLoops now
  let (turn, acts, wait) :=
    match turn.resume now agent.wait with
    | (turn, .done true) => turn.perform now agent.acts
    | (turn, .done false) => (turn, [], .nothing)
    | (turn, .waits wait) => (turn, agent.acts, wait)
  ({ client := turn.client, acts, wait }, turn.net, turn.incidents)

/-- How much of the routine is left; a wait counts less than an act. -/
def remaining (agent : Agent) : Nat :=
  2 * agent.acts.length + if agent.wait = .nothing then 0 else 1

def dues (agent : Agent) : List Duration :=
  agent.wait.deadline?.toList ++ agent.client.heartbeats.map (·.due) ++
    agent.client.receivers.map (·.due)

/-- When the routine is over at the latest. -/
def horizon (agent : Agent) (now : Duration) : Duration :=
  agent.acts.foldl (Act.latest agent.client.settings) (max now (agent.wait.deadline?.getD now))

def cancel (agent : Agent) : Agent :=
  { client := agent.client }

end Agent

end ChatLoad
