import ChatLoad.Proofs.Client.Holding
import ChatLoad.Proofs.Client.Messages
import ChatLoad.Proofs.World.Takedown

/-! What a server has to do so that nothing goes wrong: it accepts whoever connects, answers every AUTH
in time, and keeps connections open. -/

namespace ChatLoad

namespace Delivery

def isChunk : Delivery → Bool
  | chunk _ => true
  | _ => false

lemma faults_of_chunks {stream : List Delivery} (h : stream.all isChunk) : faults stream = [] := by
  induction stream with
  | nil => rfl
  | cons delivery stream ih =>
    obtain ⟨hfirst, hrest⟩ := (Bool.and_eq_true _ _).mp h
    cases delivery with
    | chunk => exact ih hrest
    | fault | finish => cases hfirst

end Delivery

lemma Inbound.drain_of_chunks {buffer : Bytes} {stream : List Delivery}
    (h : stream.all Delivery.isChunk) : (drain buffer stream).2.1 = .pending := by
  have hdrains := drains_drain buffer stream
  rcases hdrains.last with ⟨hpending, _⟩ | ⟨_, later, hlater⟩ | ⟨text, htext⟩
  · exact hpending
  · have hfinish : Delivery.finish ∈ stream := hdrains.suffix.mem (by simp [hlater])
    cases List.all_eq_true.mp h _ hfinish
  · have hall := hdrains.faults_eq
    rw [Delivery.faults_of_chunks h, htext] at hall
    cases hall

variable {σ : Type}

namespace Client

/-- Whoever looks for the answer to an AUTH finds a frame, or there is still time. -/
def answeredBy (client : Client) (net : Net σ) (now deadline : Duration) : Bool :=
  match client.reader with
  | none => true
  | some reader =>
      match (Inbound.poll reader.buffer (net.incoming reader.conn)).1 with
      | .item (.frame _) => true
      | .pending => now < deadline
      | _ => false

/-- What a move asks of the server, it gets in time. -/
def obliged (client : Client) (net : Net σ) (now : Duration) (wait : Wait) : Move → Bool
  | .begin (.connect limit) => net.attempt.1 = .accepts && limit != 0
  | .begin .authenticate =>
      match client.writes? net now wait (.begin .authenticate) with
      | some (conn, bytes) =>
          !client.hasty net &&
            client.answeredBy (net.write now conn bytes).2 now (now + client.settings.authTimeout)
      | none => true
  | .resume =>
      match wait with
      | .auth deadline => client.answeredBy net now deadline
      | _ => true
  | _ => true

/-- Nobody has broken or ended a connection that the client writes to or listens to. -/
def connectedBy (client : Client) (net : Net σ) : Bool :=
  client.held.all (fun conn => ((net.link? conn).all fun link => !link.broken)) &&
    client.receivers.all fun loop => (net.incoming loop.reader.conn).all Delivery.isChunk

section

variable {now : Duration} {client client' : Client} {net net' : Net σ} {wait wait' : Wait}
  {move : Move} {incidents : List Incident}

lemma held_of_writes? {conn : ConnId} {bytes : Bytes}
    (h : client.writes? net now wait move = some (conn, bytes)) : conn ∈ client.held := by
  cases move with
  | «begin» act =>
    simp only [writes?] at h
    split at h
    · obtain ⟨other, hwriter, hframe⟩ := Option.bind_eq_some_iff.mp h
      obtain ⟨_, _, heq⟩ := Option.map_eq_some_iff.mp hframe
      cases heq
      exact mem_held.mpr (.inl hwriter)
    · cases h
  | beat session =>
    obtain ⟨loop, hloop, heq⟩ := Option.bind_eq_some_iff.mp h
    have hmem : loop ∈ client.heartbeats := List.mem_of_find?_eq_some hloop
    split at heq
    · cases heq
      exact mem_held.mpr (.inr ⟨loop, hmem, rfl⟩)
    · cases heq
  | resume | receive => cases h

lemma Looked.fine {deadline : Duration}
    (h : Looked now deadline client net client' net' wait' incidents)
    (hreader : client.reader.isSome) (hanswered : client.answeredBy net now deadline) :
    (∀ incident ∈ incidents, incident.isSetback = false) ∧ wait'.isDialing = false := by
  cases h with
  | noReader hnone => simp [hnone] at hreader
  | answered => exact ⟨List.forall_mem_singleton.mpr rfl, rfl⟩
  | failed hr hp hframe hlate =>
    simp only [answeredBy, hr, hp] at hanswered
    split at hanswered
    · exact absurd rfl (hframe _)
    · exact absurd (hlate rfl) (Nat.not_le_of_lt (of_decide_eq_true hanswered))
    · cases hanswered
  | waits => exact ⟨by simp, rfl⟩

/-- With a server that obliges nothing goes wrong; connecting stands on its own, as a limit of nothing
does. -/
lemma Moved.fine (h : Moved now client net wait move client' net' wait' incidents)
    (hmove : ∀ limit, move ≠ .begin (.connect limit)) (wired : client.Wired wait)
    (ready : client.Ready wait) (hdialing : wait.isDialing = false)
    (keeps : ∀ conn ∈ client.held, net.Keeps conn) (hconnected : client.connectedBy net)
    (hobliged : client.obliged net now wait move) :
    (∀ incident ∈ incidents, incident.isSetback = false) ∧ wait'.isDialing = false := by
  obtain ⟨hheld, hreceivers⟩ := (Bool.and_eq_true _ _).mp hconnected
  have hwritten {conn : ConnId} {bytes : Bytes} {result : Except IoError Unit} {between : Net σ}
      (hwrites : client.writes? net now wait move = some (conn, bytes))
      (hwrite : net.write now conn bytes = (result, between)) : result = .ok () := by
    have hmem := held_of_writes? hwrites
    have hlink := List.all_eq_true.mp hheld conn hmem
    obtain ⟨after, hok⟩ := Net.write_ok (keeps conn hmem) (fun link hl => by simpa [hl] using hlink)
      now bytes
    exact (Prod.mk.injEq _ _ _ _ ▸ hwrite.symm.trans hok).1
  have hfound {session : Nat} {loop : ReceiveLoop} {items : List Item} {last : Polled}
      {buffer : Bytes} {incoming : List Delivery} (hloop : client.receiver? session = some loop)
      (hfinds : client.finds net session = (items, last, buffer, incoming)) : last = .pending := by
    have hmem : loop ∈ client.receivers := List.mem_of_find?_eq_some hloop
    have hpending := @Inbound.drain_of_chunks loop.reader.buffer _
      (List.all_eq_true.mp hreceivers loop hmem)
    simp only [finds, hloop] at hfinds
    rwa [hfinds] at hpending
  have hhandled (items : List Item) :
      ∀ incident ∈ (client.handleAll now items).2, incident.isSetback = false := by
    intro incident hi
    have hinbound := handleAll_inbound _ _ _ incident hi
    cases incident <;> first | rfl | cases hinbound
  cases h with
  | still _ hwait _ hskip =>
    refine ⟨fun incident hi => ?_, ?_⟩
    · have hmem := hskip hi
      simp only [List.mem_cons, List.not_mem_nil, or_false] at hmem
      rcases hmem with rfl | rfl | rfl | rfl <;> rfl
    · rcases hwait with rfl | ⟨_, hcall⟩
      · exact hdialing
      · exact (Wait.not_inCall_iff.mp hcall).1
  | refused | late | connecting | connected => exact absurd rfl (hmove _)
  | expired => cases hdialing
  | unsendable hstate hwriter =>
    have hw := wired (.inl (by simp [mayLogIn, hstate]))
    simp [hwriter] at hw
  | unsent _ hwrites hwrite => cases hwritten hwrites hwrite
  | hasty _ hwrites _ hasty => simp [obliged, hwrites, hasty] at hobliged
  | sent hstate hwrites hwrite _ hlook =>
    have hreader := ready (by simp [mayLogIn, hstate])
    simp only [obliged, hwrites, hwrite, Bool.and_eq_true] at hobliged
    exact hlook.fine hreader hobliged.2
  | resumed hlook => exact hlook.fine (ready (by simp [mayLogIn, Wait.isLoggingIn])) hobliged
  | chat _ _ hwrites hwrite =>
    obtain rfl := hwritten hwrites hwrite
    exact ⟨List.forall_mem_singleton.mpr rfl, rfl⟩
  | heartbeat hwrites hwrite =>
    obtain rfl := hwritten hwrites hwrite
    exact ⟨List.forall_mem_singleton.mpr rfl, rfl⟩
  | started | stopped => exact ⟨List.forall_mem_singleton.mpr rfl, rfl⟩
  | beat _ _ hwrites hwrite | lastBeat _ _ hwrites hwrite =>
    obtain rfl := hwritten hwrites hwrite
    exact ⟨List.forall_mem_singleton.mpr rfl, hdialing⟩
  | received => exact ⟨hhandled _, hdialing⟩
  | hungUp hloop hfinds | broke hloop hfinds => cases hfound hloop hfinds

lemma connect_fine {limit : Duration} (hdialing : wait.isDialing = false)
    (hobliged : client.obliged net now wait (.begin (.connect limit))) :
    (∀ incident ∈ client.noted net now wait (.begin (.connect limit)), incident.isSetback = false) ∧
      ((client.turnOn net).move now wait (.begin (.connect limit))).2.isDialing = false := by
  obtain ⟨haccepts, hlimit⟩ := (Bool.and_eq_true _ _).mp hobliged
  have haccepts := of_decide_eq_true haccepts
  rw [bne_iff_ne] at hlimit
  rw [noted, Turn.move]
  by_cases hwait : wait = .nothing
  · simp only [if_pos hwait, Turn.begin, Turn.connect, turnOn, haccepts, if_neg hlimit]
    refine ⟨fun incident hi => ?_, rfl⟩
    simp only [Turn.connected, Turn.emit, Turn.become, List.nil_append, List.cons_append,
      List.mem_cons, List.not_mem_nil, or_false] at hi
    rcases hi with rfl | rfl <;> rfl
  · simp only [if_neg hwait]
    exact ⟨fun _ hi => absurd hi List.not_mem_nil, hdialing⟩

lemma noted_fine (wired : client.Wired wait) (ready : client.Ready wait)
    (hdialing : wait.isDialing = false) (keeps : ∀ conn ∈ client.held, net.Keeps conn)
    (hconnected : client.connectedBy net) (hobliged : client.obliged net now wait move) :
    (∀ incident ∈ client.noted net now wait move, incident.isSetback = false) ∧
      ((client.turnOn net).move now wait move).2.isDialing = false := by
  by_cases hmove : ∃ limit, move = .begin (.connect limit)
  · obtain ⟨limit, rfl⟩ := hmove
    exact connect_fine hdialing hobliged
  · exact (client.moved net now wait move).fine (not_exists.mp hmove) wired ready hdialing keeps
      hconnected hobliged

end

end Client

namespace World

variable {world : World σ} {happening : Happening}

/-- Throughout a run, what is next is as it should be. -/
def Throughout (p : World σ → Happening → Bool) (world : World σ) : List Happening → Bool
  | [] => true
  | happening :: later => p world happening && Throughout p (world.step happening) later

/-- The server accepts whoever connects, answers every AUTH in time, and keeps connections open, as far as
what happens next depends on it. -/
def obliges (world : World σ) (happening : Happening) : Bool :=
  world.agents.all (fun agent => agent.client.connectedBy world.net) &&
    match happening with
    | .client position move =>
        (world.agents[position]?).all fun agent =>
          agent.client.obliged world.net world.now agent.wait move
    | _ => true

/-- Every client has all it needs to go on, and holds connections of its own. -/
structure Hosted (world : World σ) : Prop where
  agents : ∀ agent ∈ world.agents, agent.client.Wired agent.wait ∧ agent.client.Ready agent.wait ∧
    agent.wait.isDialing = false
  keeps : ∀ agent ∈ world.agents, ∀ conn ∈ agent.client.held, world.net.Keeps conn
  apart : ∀ (position place : Nat) (agent other : Agent), world.agents[position]? = some agent →
    world.agents[place]? = some other → position ≠ place → ∀ conn ∈ agent.client.held,
      conn ∉ other.client.held

lemma notes_subset (world : World σ) (position : Nat) (happenings : List Happening) :
    world.notes position happenings ⊆ world.trace (ofMoves Client.noted) happenings := by
  induction happenings generalizing world with
  | nil => exact List.Subset.refl _
  | cons happening later ih =>
    have hone : world.ofMovesBy position Client.noted happening ⊆
        world.ofMoves Client.noted happening := by
      rw [ofMovesBy]
      split
      · exact List.Subset.refl _
      · exact List.nil_subset _
    exact List.append_subset.mpr ⟨List.subset_append_of_subset_left _ hone,
      List.subset_append_of_subset_right _ (ih _)⟩

namespace Hosted

lemma passed (hosted : world.Hosted) {other : World σ} (hagents : other.agents = world.agents)
    (hnet : ∀ conn, world.net.Keeps conn → other.net.Keeps conn) : other.Hosted where
  agents := hagents ▸ hosted.agents
  keeps := fun agent ha conn hconn => hnet conn (hosted.keeps agent (hagents ▸ ha) conn hconn)
  apart := hagents ▸ hosted.apart

lemma moved (hosted : world.Hosted) {position : Nat} {agent : Agent} {move : Move}
    (h : world.agents[position]? = some agent)
    (hdialing : (agent.moved world.net world.now move).wait.isDialing = false) :
    (world.step (.client position move)).Hosted := by
  have hmoved := agent.client.moved world.net world.now agent.wait move
  have hmem := List.mem_of_getElem? h
  have hnet := net_step_client h move
  -- what the others hold is none of the client's, so the move leaves it open
  have hothers {place : Nat} {other : Agent} (ho : world.agents[place]? = some other)
      (hne : place ≠ position) {conn : ConnId} (hconn : conn ∈ other.client.held) :
      world.net.Keeps conn ∧ (world.step (.client position move)).net.Keeps conn := by
    have hkeeps := hosted.keeps other (List.mem_of_getElem? ho) conn hconn
    refine ⟨hkeeps, hnet ▸ hmoved.kept hkeeps fun hmine => ?_⟩
    exact absurd hconn (hosted.apart position place agent other h ho hne.symm conn hmine)
  have hmine {conn : ConnId} (hconn : conn ∈ (agent.moved world.net world.now move).client.held) :
      (conn ∈ agent.client.held ∨ ¬ world.net.Keeps conn) ∧
        (world.step (.client position move)).net.Keeps conn := by
    rcases hmoved.held hconn with hold | ⟨hnew, hkeeps⟩
    · exact ⟨.inl hold, hnet ▸ hmoved.kept (hosted.keeps agent hmem conn hold) fun _ => hconn⟩
    · exact ⟨.inr hnew, hnet ▸ hkeeps⟩
  have hapart {place : Nat} {other : Agent} (ho : world.agents[place]? = some other)
      (hne : place ≠ position) {conn : ConnId} (hconn : conn ∈ other.client.held) :
      conn ∉ (agent.moved world.net world.now move).client.held := by
    intro hshared
    rcases (hmine hshared).1 with hold | hnew
    · exact hosted.apart position place agent other h ho hne.symm conn hold hconn
    · exact hnew (hothers ho hne hconn).1
  refine ⟨fun after ha => ?_, fun after ha conn hconn => ?_, fun first second after after' ha ha' hne
    conn hconn => ?_⟩
  · obtain ⟨place, ha⟩ := List.getElem?_of_mem ha
    rcases agents_step_client h ha with ⟨_, rfl⟩ | ⟨_, hold⟩
    · obtain ⟨wired, ready, _⟩ := hosted.agents agent hmem
      exact ⟨hmoved.wired wired, hmoved.ready ready, hdialing⟩
    · exact hosted.agents after (List.mem_of_getElem? hold)
  · obtain ⟨place, ha⟩ := List.getElem?_of_mem ha
    rcases agents_step_client h ha with ⟨_, rfl⟩ | ⟨hplace, hold⟩
    · exact (hmine hconn).2
    · exact (hothers hold hplace hconn).2
  · rcases agents_step_client h ha with ⟨rfl, rfl⟩ | ⟨hfirst, hold⟩
    · rcases agents_step_client h ha' with ⟨rfl, _⟩ | ⟨hsecond, hold'⟩
      · exact absurd rfl hne
      · exact fun hconn' => hapart hold' hsecond hconn' hconn
    · rcases agents_step_client h ha' with ⟨rfl, rfl⟩ | ⟨_, hold'⟩
      · exact hapart hold hfirst hconn
      · exact hosted.apart first second after after' hold hold' hne conn hconn

lemma step (hosted : world.Hosted) (hobliges : world.obliges happening) :
    (world.step happening).Hosted ∧
      ∀ incident ∈ world.ofMoves Client.noted happening, incident.isSetback = false := by
  have hnone : ∀ incident ∈ ([] : List Incident), incident.isSetback = false := by simp
  cases happening with
  | peer action => exact ⟨hosted.passed rfl fun _ hk => hk.apply action, hnone⟩
  | agenda => exact ⟨hosted.passed rfl fun _ hk => hk.runAgenda world.now, hnone⟩
  | pass => exact ⟨hosted.passed rfl fun _ hk => hk, hnone⟩
  | client position move =>
    cases h : world.agents[position]? with
    | none =>
      rw [step, h, ofMoves, h]
      exact ⟨hosted, hnone⟩
    | some agent =>
      have hmem := List.mem_of_getElem? h
      obtain ⟨hconnected, hobliged⟩ := (Bool.and_eq_true _ _).mp hobliges
      simp only [h, Option.all_some] at hobliged
      obtain ⟨wired, ready, hdialing⟩ := hosted.agents agent hmem
      obtain ⟨hfine, hdialing'⟩ := Client.noted_fine wired ready hdialing (hosted.keeps agent hmem)
        (List.all_eq_true.mp hconnected agent hmem) hobliged
      rw [ofMoves_client h]
      exact ⟨hosted.moved h hdialing', hfine⟩

theorem run (hosted : world.Hosted) {happenings : List Happening}
    (hobliges : world.Throughout obliges happenings) :
    (world.run happenings).Hosted ∧
      ∀ incident ∈ world.trace (ofMoves Client.noted) happenings, incident.isSetback = false := by
  induction happenings generalizing world with
  | nil => exact ⟨hosted, by simp [trace]⟩
  | cons happening later ih =>
    obtain ⟨hfirst, hlater⟩ := (Bool.and_eq_true _ _).mp hobliges
    obtain ⟨hosted', hfine⟩ := hosted.step hfirst
    obtain ⟨hafter, hfine'⟩ := ih hosted' hlater
    exact ⟨hafter, List.forall_mem_append.mpr ⟨hfine, hfine'⟩⟩

lemma notes_fine (hosted : world.Hosted) {happenings : List Happening}
    (hobliges : world.Throughout obliges happenings) (position : Nat) :
    ∀ incident ∈ world.notes position happenings, incident.isSetback = false :=
  fun incident hi => (hosted.run hobliges).2 incident (world.notes_subset position happenings hi)

end Hosted

end World

end ChatLoad
