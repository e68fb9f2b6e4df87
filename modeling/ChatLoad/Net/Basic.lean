import ChatLoad.Net.Peer

/-! The network between clients and a peer. Bytes take no time; what a peer does later is on an
agenda. -/

namespace ChatLoad

/-- One connection as its client's host sees it. -/
structure Link where
  /-- what has arrived and is not read yet -/
  incoming : List Delivery := []
  /-- reset, so that writes fail -/
  broken : Bool := false
  /-- closed by the client -/
  closed : Bool := false
  deriving Repr, DecidableEq

namespace Link

/-- No bytes follow the end of a stream or a reset. -/
def ended (link : Link) : Bool :=
  link.broken || link.incoming.getLast? == some .finish

def push (link : Link) (delivery : Delivery) : Link :=
  if link.ended then link else { link with incoming := link.incoming ++ [delivery] }

/-- The reader meets the fault once it has read what arrived before. -/
def reset (link : Link) : Link :=
  if link.broken then link
  else
    { link with
      incoming := link.incoming.filter (· != .finish) ++ [.fault IoError.reset.message, .finish]
      broken := true }

end Link

structure Net (σ : Type) where
  peer : Peer σ
  memory : σ
  /-- what becomes of the next attempts to connect, and of all that follow them -/
  foreseen : List Reach := []
  reach : Reach := .accepts
  links : List Link := []
  agenda : List (Duration × Action) := []
  /-- the wall clock at moment zero, in milliseconds since 1970 -/
  epoch : Nat := 0

namespace Net

variable {σ : Type}

/-! ### Clock -/

def wallMillis (net : Net σ) (now : Duration) : Int64 :=
  Int64.ofNat (net.epoch + now / 1000000)

/-- A request id for a frame that nobody waits for, in microseconds. -/
def clockId (net : Net σ) (now : Duration) : UInt64 :=
  UInt64.ofNat (net.epoch * 1000 + now / 1000)

/-! ### The peer's side -/

def change (net : Net σ) (conn : ConnId) (f : Link → Link) : Net σ :=
  { net with links := net.links.modify conn f }

def apply (net : Net σ) : Action → Net σ
  | .deliver conn bytes => net.change conn (·.push (.chunk bytes))
  | .finish conn => net.change conn (·.push .finish)
  | .reset conn => net.change conn (·.reset)
  | .stopListening =>
      { net with foreseen := net.foreseen.map Reach.withoutListener, reach := net.reach.withoutListener }

/-- Does at once what takes no time and puts the rest on the agenda. -/
def react (net : Net σ) (now : Duration) (reactions : List Reaction) : Net σ :=
  reactions.foldl
    (fun net reaction =>
      if reaction.after = 0 then net.apply reaction.action
      else { net with agenda := net.agenda ++ [(now + reaction.after, reaction.action)] })
    net

def runAgenda (net : Net σ) (now : Duration) : Net σ :=
  let due := net.agenda.filter (·.1 ≤ now)
  let later := net.agenda.filter (now < ·.1)
  due.foldl (fun net entry => net.apply entry.2) { net with agenda := later }

/-! ### The client's side -/

def link? (net : Net σ) (conn : ConnId) : Option Link :=
  net.links[conn]?

def incoming (net : Net σ) (conn : ConnId) : List Delivery :=
  match net.link? conn with
  | some link => link.incoming
  | none => []

def leave (net : Net σ) (conn : ConnId) (incoming : List Delivery) : Net σ :=
  net.change conn ({ · with incoming })

def attempt (net : Net σ) : Reach × Net σ :=
  match net.foreseen with
  | [] => (net.reach, net)
  | next :: foreseen => (next, { net with foreseen })

def openLink (net : Net σ) (now : Duration) : ConnId × Net σ :=
  let conn := net.links.length
  let (memory, reactions) := net.peer.accept conn net.memory
  let links := net.links ++ [({} : Link)]
  (conn, { net with memory, links }.react now reactions)

/-- Closes a connection. The peer does not hear of it after a reset. -/
def close (net : Net σ) (conn : ConnId) : Net σ :=
  match net.link? conn with
  | none => net
  | some link =>
      let net := net.change conn ({ · with closed := true })
      if link.closed || link.broken then net
      else { net with memory := net.peer.lose conn net.memory }

/-- Writes to a connection; on success the peer has read the bytes. -/
def write (net : Net σ) (now : Duration) (conn : ConnId) (bytes : Bytes) :
    Except IoError Unit × Net σ :=
  match net.link? conn with
  | none => (.error .brokenPipe, net)
  | some link =>
      if link.broken || link.closed then (.error .brokenPipe, net)
      else
        let (memory, reactions) := net.peer.hear conn bytes net.memory
        (.ok (), { net with memory }.react now reactions)

end Net

end ChatLoad
