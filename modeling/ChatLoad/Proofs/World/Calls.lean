import ChatLoad.Proofs.World.Passage
import ChatLoad.Proofs.World.Refusals
import ChatLoad.Scenario.Run

/-! Calls that send a message: what each is to send, and that each is told of once, as a message sent,
as one that could not be written, or as one that was refused. -/

namespace ChatLoad

namespace Incident

def isUnsent : Incident → Bool
  | chatFailed _ _ => true
  | _ => false

def isRefused : Incident → Bool
  | chatRefused => true
  | _ => false

lemma countP_ofChat (incidents : List Incident) :
    incidents.countP ofChat =
      tally incidents .messagesSent + incidents.countP isUnsent + incidents.countP isRefused := by
  induction incidents with
  | nil => rfl
  | cons incident incidents ih =>
    have hone : (if incident.ofChat then 1 else 0) = incident.counters.count .messagesSent +
        (if incident.isUnsent then 1 else 0) + if incident.isRefused then 1 else 0 := by
      cases incident <;> rfl
    rw [tally_cons, List.countP_cons, List.countP_cons, List.countP_cons, ih, hone]
    omega

lemma countP_of_loops {incidents : List Incident} (h : ∀ incident ∈ incidents, incident.ofLoop) :
    incidents.countP ofChat = 0 := by
  refine List.countP_eq_zero.mpr fun incident hi => ?_
  have hloop := h incident hi
  cases incident <;> first | exact Bool.false_ne_true | cases hloop

end Incident

lemma Act.Comes.countP_ofChat {state : ClientState} {act : Act} {incidents : List Incident}
    {progress : Progress} (h : act.Comes state incidents progress) (hsilent : act.isChat = false) :
    incidents.countP Incident.ofChat = 0 := by
  cases h with
  | sent hchat | unsent hchat | refused hchat => cases hsilent.symm.trans hchat
  | heartbeat hmine =>
    rcases hmine with hloop | rfl
    · exact Incident.countP_of_loops (List.forall_mem_singleton.mpr hloop)
    · rfl
  | _ => rfl

lemma Wait.Ends.countP_ofChat {wait : Wait} {incidents : List Incident} {succeeded : Bool}
    (h : wait.Ends incidents succeeded) : incidents.countP Incident.ofChat = 0 := by
  cases h <;> rfl

namespace Client

variable {σ : Type}

/-- What a call is to send, at any reading of the clock. -/
def calls (client : Client) (_net : Net σ) (_now : Duration) (wait : Wait) :
    Move → List (Int64 → Chat)
  | .begin act => if wait = .nothing then (client.message? act).toList else []
  | _ => []

section

variable (client : Client) (net : Net σ) (now : Duration) (wait : Wait)

lemma countP_sendChat (message : Int64 → Chat) :
    ((client.turnOn net).sendChat now message).incidents.countP Incident.ofChat = 1 := by
  rw [Turn.sendChat]
  split
  · dsimp only
    split <;> rfl
  · rfl

lemma countP_begin (act : Act) :
    ((client.turnOn net).begin now act).1.incidents.countP Incident.ofChat =
      (client.message? act).toList.length := by
  cases act with
  | single target content =>
    rw [Turn.begin, Turn.single, countP_sendChat]
    rfl
  | group session content =>
    rw [Turn.begin, Turn.group, countP_sendChat]
    rfl
  | connect limit => exact (client.connect_comes net now limit client.state).countP_ofChat rfl
  | authenticate =>
    have hcomes := @authenticate_comes _ client ⟨client.state, false⟩ net now rfl
    exact hcomes.countP_ofChat rfl
  | start interval =>
    rw [Turn.begin, Turn.start]
    split <;> rfl
  | heartbeat =>
    rw [Turn.begin, Turn.heartbeat]
    split
    · rw [Turn.beat]
      split <;> rfl
    · rfl
  | stop | pause | pauseUntil => rfl

/-- Every call is told of just once, and nothing else is told of as a call. -/
lemma countP_noted (move : Move) :
    (client.noted net now wait move).countP Incident.ofChat =
      (client.calls net now wait move).length := by
  cases move with
  | «begin» act =>
    rw [noted, Turn.move, calls]
    split
    · exact client.countP_begin net now act
    · rfl
  | resume =>
    rw [noted, Turn.move]
    by_cases hwait : wait = .nothing
    · rw [hwait]
      rfl
    · rcases client.resume_ends net now hwait with ⟨_, hnone⟩ | ⟨_, _, hends⟩
      · exact congrArg (List.countP _) hnone
      · exact hends.countP_ofChat
  | beat session => exact Incident.countP_of_loops (client.noted_beat net now wait session)
  | receive session => exact Incident.countP_of_loops (client.noted_receive net now wait session)

lemma message?_congr {client other : Client} (h : client.id = other.id) (act : Act) :
    client.message? act = other.message? act := by
  cases act <;> simp [message?, h]

lemma calls_eq_begun (move : Move) :
    client.calls net now wait move =
      (client.begun net now wait move).filterMap fun entry => client.message? entry.2 := by
  cases move with
  | «begin» act =>
    rw [calls, begun]
    split
    · cases hm : client.message? act <;> simp [hm]
    · rfl
  | resume | beat | receive => rfl

end

variable {now : Duration} {client client' : Client} {net net' : Net σ} {wait wait' : Wait}
  {move : Move} {incidents : List Incident}

lemma Moved.talking
    (h : Moved now client net wait move client' net' wait' incidents) (hwait : wait.inCall = false)
    (hacts : ∀ act, move = .begin act → act.isChat ∨ act.isPause) :
    wait'.inCall = false ∧ (client'.state = client.state ∨ client'.state = .stopped) := by
  cases h with
  | still _ hsame =>
    refine ⟨?_, .inl rfl⟩
    rcases hsame with rfl | ⟨_, hafter⟩
    · exact hwait
    · exact hafter
  | chat => exact ⟨rfl, .inl rfl⟩
  | beat | lastBeat => exact ⟨hwait, .inl rfl⟩
  | received =>
    rw [handleAll_client]
    exact ⟨hwait, .inl rfl⟩
  | hungUp | broke => exact ⟨hwait, .inr rfl⟩
  | expired | resumed => cases hwait
  | _ => simpa [Act.isChat, Act.isPause] using hacts _ rfl

lemma refuses_of_refused {standing : Standing} (stands : client.Stands wait standing)
    (h : .chatRefused ∈ client.noted net now wait move) :
    ∃ act, move = .begin act ∧ client.refuses act = true ∧ client.isAuthenticated = false := by
  have hauth := (stands.noted net now move).2.1 h
  have hcount : 0 < (client.noted net now wait move).countP Incident.ofChat :=
    List.countP_pos_iff.mpr ⟨_, h, rfl⟩
  rw [countP_noted] at hcount
  cases move with
  | «begin» act =>
    refine ⟨act, rfl, ?_, hauth⟩
    rw [calls] at hcount
    split at hcount
    · cases act with
      | single | group => simp [refuses, hauth]
      | _ => cases hcount
    · cases hcount
  | resume | beat | receive => cases hcount

end Client

namespace World

variable {σ : Type} {world other : World σ} {position : Nat} {agent : Agent}

lemma map_happened (world : World σ) (moves : List Happening) :
    (world.trace happened moves).map Prod.snd = world.trace (ofMoves Client.noted) moves := by
  induction moves generalizing world with
  | nil => rfl
  | cons happening later ih =>
    rw [trace, trace, List.map_append, ih]
    congr 1
    rcases step_cases world happening with ⟨place, agent, move, rfl, h⟩ | ⟨_, _, hnone⟩
    · rw [happened, ofMoves_client h, ofMoves_client h, Client.told, List.map_map]
      exact List.map_id _
    · rw [happened, hnone, hnone]
      rfl

lemma countP_trace (world : World σ) (moves : List Happening) :
    (world.trace (ofMoves Client.noted) moves).countP Incident.ofChat =
      (world.trace (ofMoves Client.calls) moves).length := by
  induction moves generalizing world with
  | nil => rfl
  | cons happening later ih =>
    rw [trace, trace, List.countP_append, List.length_append, ih]
    congr 1
    rcases step_cases world happening with ⟨place, agent, move, rfl, h⟩ | ⟨_, _, hnone⟩
    · rw [ofMoves_client h, ofMoves_client h, Client.countP_noted]
    · rw [hnone, hnone]
      rfl

lemma Numbered.calls_eq_begun (numbered : world.Numbered) {client : Client}
    (hid : client.id.toNat = position + 1) (moves : List Happening) :
    world.trace (ofMovesBy position Client.calls) moves =
      (world.trace (ofMovesBy position Client.begun) moves).filterMap fun entry =>
        client.message? entry.2 := by
  induction moves generalizing world with
  | nil => rfl
  | cons happening later ih =>
    rw [trace, trace, List.filterMap_append, ih (numbered.step happening)]
    congr 1
    cases hby : happening.isBy (· == position) with
    | false => rw [ofMovesBy_other hby, ofMovesBy_other hby, List.filterMap_nil]
    | true =>
      obtain ⟨move, rfl⟩ := eq_client_of_isBy hby
      cases h : world.agents[position]? with
      | none => simp [ofMovesBy, ofMoves, h]
      | some mover =>
        have hmine : mover.client.id = client.id :=
          UInt64.toNat_inj.mp ((numbered position mover h).trans hid.symm)
        rw [ofMovesBy_self h, ofMovesBy_self h, Client.calls_eq_begun]
        simp only [Client.message?_congr hmine]

/-! ### Routines of chats -/

/-- However its clients have got there, each stands as its incidents tell. -/
def Sound (world : World σ) : Prop :=
  ∀ agent ∈ world.agents, ∃ standing, agent.client.Stands agent.wait standing

lemma Sound.run (sound : world.Sound) (moves : List Happening) : (world.run moves).Sound :=
  run_agents (p := fun client wait => ∃ standing, client.Stands wait standing) sound
    (fun hmoved ⟨_, stands⟩ => ⟨_, hmoved.stands stands⟩) moves

lemma Sound.same (sound : world.Sound) (same : world.Same other) : other.Sound := by
  intro agent' ha'
  obtain ⟨position, hp'⟩ := List.getElem?_of_mem ha'
  obtain ⟨agent, hp, hclient, hwait⟩ := same.symm.agent hp'
  rw [← hclient, ← hwait]
  exact sound agent (List.mem_of_getElem? hp)

/-- Of the acts that an agent begins, each is a chat or a pause. -/
def Talks (position : Nat) (moves : List Happening) : Prop :=
  ∀ act, .client position (.begin act) ∈ moves → act.isChat ∨ act.isPause

lemma Talks.run {moves : List Happening} (talks : Talks position moves)
    (h : world.agents[position]? = some agent) (hwait : agent.wait.inCall = false) :
    ∀ agent', (world.run moves).agents[position]? = some agent' →
      agent'.wait.inCall = false ∧
        (agent'.client.state = agent.client.state ∨ agent'.client.state = .stopped) := by
  intro agent' ha'
  refine run_position (motive := fun before after => Talks position before →
    after.wait.inCall = false ∧
      (after.client.state = agent.client.state ∨ after.client.state = .stopped))
    ?_ ?_ ?_ moves agent' ha' talks
  · intro first hfirst _
    obtain rfl := Option.some.inj (h.symm.trans hfirst)
    exact ⟨hwait, .inl rfl⟩
  · intro before mover move hmover ih talks
    obtain ⟨hcall, hstate⟩ := ih fun act hact => talks act (List.mem_append_left _ hact)
    have hmoved := mover.client.moved (world.run before).net (world.run before).now mover.wait move
    obtain ⟨hafter, hnext⟩ := hmoved.talking hcall fun act hact => talks act (by simp [hact])
    refine ⟨hafter, hnext.elim (fun hsame => ?_) .inr⟩
    exact hstate.imp hsame.trans hsame.trans
  · intro before mover happening _ ih talks
    exact ih fun act hact => talks act (List.mem_append_left _ hact)

/-- These steps are told of, and every call among them is told of as sent, as unsent, or as refused. It
is refused only because its client is stopped, and then leaves everything as it was. -/
structure Accounted (world : World σ) (moves : List Happening) (after : World σ) : Prop where
  same : (world.run moves).Same after
  doings : after.doings = world.doings ++ world.trace happened moves
  balance :
    after.stats.counters.get .messagesSent +
        (world.trace happened moves).countP (·.2.isUnsent) +
        (world.trace happened moves).countP (·.2.isRefused) =
      world.stats.counters.get .messagesSent + (world.trace (ofMoves Client.calls) moves).length
  refused : ∀ before position move later agent, moves = before ++ .client position move :: later →
    (world.run before).agents[position]? = some agent →
    .chatRefused ∈
      agent.client.noted (world.run before).net (world.run before).now agent.wait move →
    agent.client.state = .stopped ∧
      (world.run before).Same ((world.run before).step (.client position move))

lemma Leads.balance {moves : List Happening} (leads : world.Leads moves other) :
    other.stats.counters.get .messagesSent +
        (world.trace happened moves).countP (·.2.isUnsent) +
        (world.trace happened moves).countP (·.2.isRefused) =
      world.stats.counters.get .messagesSent + (world.trace (ofMoves Client.calls) moves).length := by
  have hcounted : other.stats.counters.get .messagesSent =
      world.stats.counters.get .messagesSent +
        Incident.tally (world.trace (ofMoves Client.noted) moves) .messagesSent := by
    rw [← leads.same.stats, stats_run, Stats.get_after]
  have htold (p : Incident → Bool) : (world.trace happened moves).countP (fun told => p told.2) =
      (world.trace (ofMoves Client.noted) moves).countP p := by
    rw [← map_happened, List.countP_map]
    rfl
  rw [hcounted, htold, htold, ← countP_trace, Incident.countP_ofChat]
  omega

def toAuthenticated (routine : Nat → Client → List Act) (position : Nat) (agent : Agent) :
    List Act :=
  if agent.client.isAuthenticated then routine position agent.client else []

section

variable {routine : Nat → Client → List Act}

lemma mem_toAuthenticated {act : Act} (h : act ∈ toAuthenticated routine position agent) :
    agent.client.isAuthenticated ∧ act ∈ routine position agent.client := by
  rw [toAuthenticated] at h
  split at h
  · next hauth => exact ⟨hauth, h⟩
  · cases h

/-- Chats that are assigned to the authenticated are accounted for, also if they are interrupted. -/
theorem assignAuthenticated_accounted (sound : world.Sound) (idle : world.isIdle)
    (chats : ∀ position client, ∀ act ∈ routine position client, act.isChat ∨ act.isPause) :
    world.Accounted (world.assignMoves (toAuthenticated routine))
      (world.assignAuthenticated routine) := by
  obtain ⟨leads, hbegun⟩ := assign_leads idle (toAuthenticated routine)
  refine ⟨leads.same, leads.doings, leads.balance, ?_⟩
  intro before position move later agent hmoves ha hrefused
  obtain ⟨standing, stands⟩ := sound.run before agent (List.mem_of_getElem? ha)
  obtain ⟨act, rfl, hrefuses, hout⟩ := Client.refuses_of_refused stands hrefused
  refine ⟨?_, same_refused ha hrefuses⟩
  -- who calls was authenticated at first, and can only have been stopped since
  obtain ⟨first, hfirst, hact⟩ := @hbegun position act (by simp [hmoves])
  have talks : Talks position before := by
    intro act hact
    obtain ⟨other, _, hacts⟩ := @hbegun position act (by simp [hmoves, hact])
    exact chats _ _ act (mem_toAuthenticated hacts).2
  have hwait : first.wait.inCall = false := by
    rw [(idle_agent idle hfirst).2]
    rfl
  refine ((talks.run hfirst hwait agent ha).2).resolve_left fun hstate => ?_
  have hauth := (mem_toAuthenticated hact).1
  rw [Client.isAuthenticated, ← hstate] at hauth
  rw [Client.isAuthenticated, hauth] at hout
  cases hout

end

/-! ### Numbers of calls -/

lemma mem_trace_begun {entry : Duration × Act} {moves : List Happening}
    (h : entry ∈ world.trace (ofMovesBy position Client.begun) moves) :
    .client position (.begin entry.2) ∈ moves := by
  induction moves generalizing world with
  | nil => cases h
  | cons happening later ih =>
    rw [trace] at h
    rcases List.mem_append.mp h with hmine | hlater
    · obtain ⟨mover, move, rfl, _, hbegun⟩ := mem_ofMovesBy hmine
      cases move with
      | «begin» act =>
        rw [Client.begun] at hbegun
        split at hbegun
        · rw [List.mem_singleton.mp hbegun]
          exact List.mem_cons_self
        · cases hbegun
      | resume | beat | receive => cases hbegun
    · exact List.mem_cons_of_mem _ (ih hlater)

/-- Unless they are interrupted, idle clients call with just the messages of their routines. -/
lemma assign_calls {routine : Nat → Agent → List Act} (numbered : world.Numbered)
    (idle : world.isIdle) (plain : ∀ position agent, ∀ act ∈ routine position agent, act.isPlain)
    (h : (world.assign routine).interrupted = false) (ha : world.agents[position]? = some agent) :
    world.trace (ofMovesBy position Client.calls) (world.assignMoves routine) =
      (routine position agent).filterMap agent.client.message? := by
  rw [numbered.calls_eq_begun (numbered position agent ha),
    (assignMoves_begun idle plain h).2 position agent ha]
  conv_rhs => rw [← Act.map_timetable agent.client.settings world.now (routine position agent),
    List.filterMap_map]
  rfl

lemma sum_authenticated (agents : List Agent) (times : Nat) :
    (∑ position ∈ Finset.range agents.length,
      if agents[position]?.any (·.client.isAuthenticated) then times else 0) =
      agents.countP (·.client.isAuthenticated) * times := by
  induction agents using List.reverseRecOn with
  | nil => simp
  | append_singleton agents agent ih =>
    have hbefore : ∀ position ∈ Finset.range agents.length,
        (if (agents ++ [agent])[position]?.any (·.client.isAuthenticated) then times else 0) =
          if agents[position]?.any (·.client.isAuthenticated) then times else 0 := by
      intro position hp
      rw [List.getElem?_append_left (Finset.mem_range.mp hp)]
    rw [List.length_append, List.length_singleton, Finset.sum_range_succ,
      Finset.sum_congr rfl hbefore, ih, List.getElem?_concat_length, Option.any_some,
      List.countP_append, List.countP_singleton, Nat.add_mul]
    split <;> simp

/-- The clients that are authenticated at first call so many times each, with such messages, and every
call is accounted for. Only where the run is interrupted may they have called less often, and it is not
unless something in the log interrupts it. -/
structure Sends (world : World σ) (moves : List Happening) (after : World σ) (times : Nat)
    (fits : UInt64 → (Int64 → Chat) → Prop) : Prop extends Accounted world moves after where
  fits : ∀ position agent, world.agents[position]? = some agent →
    ∀ call ∈ world.trace (ofMovesBy position Client.calls) moves, fits agent.client.id call
  each : after.interrupted = false → ∀ position agent, world.agents[position]? = some agent →
    (world.trace (ofMovesBy position Client.calls) moves).length =
      if agent.client.isAuthenticated then times else 0
  total : after.interrupted = false →
    (world.trace (ofMoves Client.calls) moves).length = world.authenticatedCount * times
  uncut : world.Undisturbed → after.interrupted = false

theorem assignAuthenticated_sends {routine : Nat → Client → List Act} {times : Nat}
    {fits : UInt64 → (Int64 → Chat) → Prop} (sound : world.Sound) (numbered : world.Numbered)
    (idle : world.isIdle)
    (chats : ∀ position client, ∀ act ∈ routine position client, act.isChat ∨ act.isPause)
    (hfits : ∀ position client, ∀ call ∈ (routine position client).filterMap client.message?,
      fits client.id call)
    (htimes : ∀ position client,
      ((routine position client).filterMap client.message?).length = times) :
    world.Sends (world.assignMoves (toAuthenticated routine)) (world.assignAuthenticated routine)
      times fits := by
  have plain : ∀ position agent, ∀ act ∈ toAuthenticated routine position agent, act.isPlain := by
    intro position agent act hact
    rcases chats _ _ act (mem_toAuthenticated hact).2 with hchat | hpause
    · cases act <;> first | rfl | cases hchat
    · cases act <;> first | rfl | cases hpause
  have each (h : (world.assignAuthenticated routine).interrupted = false) {position : Nat}
      {agent : Agent} (ha : world.agents[position]? = some agent) :
      (world.trace (ofMovesBy position Client.calls)
        (world.assignMoves (toAuthenticated routine))).length =
        if agent.client.isAuthenticated then times else 0 := by
    rw [assign_calls numbered idle plain h ha, toAuthenticated]
    split
    · exact htimes position agent.client
    · rfl
  refine ⟨assignAuthenticated_accounted sound idle chats, fun position agent ha call hcall => ?_,
    fun h position agent ha => each h ha, fun h => ?_,
    fun undisturbed => (undisturbed.assign _).interrupted⟩
  · rw [numbered.calls_eq_begun (numbered position agent ha)] at hcall
    obtain ⟨entry, hentry, hmessage⟩ := List.mem_filterMap.mp hcall
    obtain ⟨other, hother, hact⟩ :=
      (assign_leads idle (toAuthenticated routine)).2 (mem_trace_begun hentry)
    obtain rfl : agent = other := Option.some.inj (ha.symm.trans hother)
    exact hfits position _ call
      (List.mem_filterMap.mpr ⟨entry.2, (mem_toAuthenticated hact).2, hmessage⟩)
  · rw [measure_trace Client.calls List.length rfl fun _ _ => List.length_append,
      authenticatedCount, ← sum_authenticated]
    refine Finset.sum_congr rfl fun position hp => ?_
    have ha := List.getElem?_eq_getElem (Finset.mem_range.mp hp)
    rw [each h ha, ha, Option.any_some]

lemma sends_nothing (world : World σ) (fits : UInt64 → (Int64 → Chat) → Prop) :
    world.Sends [] world 0 fits where
  same := .refl world
  doings := (List.append_nil _).symm
  balance := rfl
  refused := fun _ _ _ _ _ hmoves => by simp at hmoves
  fits := fun _ _ _ _ hcall => by cases hcall
  each := fun _ _ _ _ => (ite_self _).symm
  total := fun _ => rfl
  uncut := Undisturbed.interrupted

lemma Sends.of_note {moves : List Happening} {times : Nat} {fits : UInt64 → (Int64 → Chat) → Prop}
    {level : Level} {text : String} (sends : (world.note level text).Sends moves other times fits) :
    world.Sends moves other times fits := by
  have same := world.note_same level text
  have hdoings : (world.note level text).doings = world.doings := by
    simp [doings, note, record, Event.doing?]
  refine ⟨⟨(same.symm.run moves).trans sends.same, ?_, ?_, ?_⟩, ?_, ?_, ?_,
    fun undisturbed => sends.uncut (undisturbed.record _)⟩
  · rw [← hdoings, happened, ← same.trace_all]
    exact sends.doings
  · rw [happened, ← same.trace_all, ← same.trace_all]
    exact sends.balance
  · intro before position move later agent hmoves ha hrefused
    have hbefore := same.run before
    obtain ⟨agent', ha', hclient, hwait⟩ := hbefore.symm.agent ha
    rw [← hclient, ← hwait, ← hbefore.net, ← hbefore.now] at hrefused
    obtain ⟨hstate, hstill⟩ := sends.refused before position move later agent' hmoves ha' hrefused
    exact ⟨hclient ▸ hstate, hbefore.symm.trans (hstill.trans (hbefore.step _))⟩
  · intro position agent ha
    rw [← same.trace]
    exact sends.fits position agent ha
  · intro h position agent ha
    rw [← same.trace]
    exact sends.each h position agent ha
  · intro h
    rw [← same.trace_all]
    exact sends.total h

end World

end ChatLoad
