import ChatLoad.Proofs.Scenario.Chats
import ChatLoad.Proofs.Scenario.Halves
import ChatLoad.Proofs.Scenario.Population
import ChatLoad.Proofs.World.Hospitality

/-! Messages to clients that are offline: the second half of the population is stopped, the first half
sends to it, and then the second half connects again. -/

namespace ChatLoad.World

variable {σ : Type}

/-! ### Phases -/

section

variable (world : World σ)

def secondHalf (half : Nat) (acts : List Act) (position : Nat) (_agent : Agent) : List Act :=
  if half ≤ position then acts else []

def disconnecting : World σ :=
  world.noteUnlessInterrupted .info
    s!"[OfflineMessage] Disconnecting {world.agents.length - world.split} clients"

def disconnectMoves : List Happening :=
  world.disconnecting.assignMoves (secondHalf world.split [.stop])

def messaging : World σ :=
  world.noteUnlessInterrupted .info "[OfflineMessage] Sending to offline clients"

def messageRoutine (draws : Draws) (params : RunParams) (position : Nat) (agent : Agent) : List Act :=
  if agent.client.isAuthenticated then
    if position < world.split then
      offlineRoutine draws world.messaging.settings params world.agents.length agent.client
    else []
  else []

def messageMoves (draws : Draws) (params : RunParams) : List Happening :=
  if world.agents.length = world.split then []
  else world.messaging.assignMoves (world.messageRoutine draws params)

def reconnecting : World σ :=
  world.noteUnlessInterrupted .info
    s!"[OfflineMessage] Reconnecting {world.agents.length - world.split} clients"

def reconnectActs : List Act :=
  [.connect world.settings.connectTimeout, .authenticate, .start world.settings.heartbeatInterval]

def reconnectMoves : List Happening :=
  world.reconnecting.assignMoves (secondHalf world.split world.reconnectActs)

def takenOffline : World σ :=
  world.disconnectOffline.rest world.settings.offlineSettle

def messaged (draws : Draws) (params : RunParams) : World σ :=
  (world.takenOffline.messageOffline draws params).rest world.settings.offlineSettle

def returned (draws : Draws) (params : RunParams) : World σ :=
  (world.messaged draws params).reconnectOffline.noteUnlessInterrupted .info
    "[OfflineMessage] Waiting for offline delivery"

def runOfflineMoves (draws : Draws) (params : RunParams) : List Happening :=
  world.disconnectMoves ++ world.disconnectOffline.restMoves world.settings.offlineSettle ++
    (world.takenOffline.messageMoves draws params ++
      (world.takenOffline.messageOffline draws params).restMoves world.settings.offlineSettle ++
    ((world.messaged draws params).reconnectMoves ++
      (world.returned draws params).restMoves
        (world.returned draws params).settings.offlineDeliveryWait))

end

section

variable {world : World σ}

/-- The clients of the second half are given these acts. -/
def GivenToSecond (half : Nat) (acts : List Act) (position : Nat) (_standing : Standing)
    (given : List Act) : Prop :=
  given = if half ≤ position then acts else []

/-- The clients of the first half that are running are given so many messages to send. -/
def Messaging (half messages : Nat) (position : Nat) (standing : Standing) (acts : List Act) : Prop :=
  (∀ act ∈ acts, act.isChat ∨ act.isPause) ∧ (half ≤ position → acts = []) ∧
    (position < half → standing.state = .running → acts.countP Act.isChat = messages)

lemma secondHalf_passage (idle : world.isIdle) {level : Level} {text : String} {half : Nat}
    {acts : List Act} (hsilent : ∀ act ∈ acts, act.isChat = false)
    (h : ((world.noteUnlessInterrupted level text).assign (secondHalf half acts)).interrupted = false) :
    Passage Silent (Following (GivenToSecond half acts)) world
      ((world.noteUnlessInterrupted level text).assignMoves (secondHalf half acts))
      ((world.noteUnlessInterrupted level text).assign (secondHalf half acts)) := by
  refine Passage.of_note idle (assign_passage (@note_passage _ _ Silent idle level text).idle h ?_ ?_)
  · exact fun _ _ htale => ⟨_, rfl, htale⟩
  · intro position agent act _ hact
    rw [secondHalf] at hact
    split at hact
    · exact hsilent act hact
    · cases hact

lemma Silent.lawful {position : Nat} {act : Act} (h : Silent position act) (half count : Nat) :
    Lawful half count position act :=
  fun hchat => by simp [Silent, hchat] at h

/-! ### Messages -/

lemma countP_sendPaused {count : Nat} {pause : Duration} {message : Nat → Act}
    (hchat : ∀ i, (message i).isChat) :
    (sendPaused count pause fun i => some (message i)).countP Act.isChat = count := by
  rw [sendPaused]
  induction count with
  | zero => rfl
  | succ count ih =>
    have hlast : [message count, .pause pause].countP Act.isChat = 1 :=
      List.countP_cons_of_pos (hchat count)
    rw [List.range_succ, List.flatMap_append, List.countP_append, ih, List.flatMap_singleton]
    exact congrArg _ hlast

section

variable {draws : Draws} {settings : Settings} {params : RunParams} {clients : Nat} {client : Client}

lemma offlineRoutine_talks :
    ∀ act ∈ offlineRoutine draws settings params clients client, act.isChat ∨ act.isPause := by
  refine sendPaused_talks fun i act hact => ?_
  obtain rfl := Option.some.inj hact
  rfl

lemma countP_offlineRoutine :
    (offlineRoutine draws settings params clients client).countP Act.isChat =
      params.messagesPerClient :=
  countP_sendPaused fun _ => rfl

end

lemma message_lawful {draws : Draws} {settings : Settings} {params : RunParams} {clients : Nat}
    {client : Client} {position : Nat} (hposition : position < offlineSplit clients)
    {act : Act} (hact : act ∈ offlineRoutine draws settings params clients client) :
    Lawful (offlineSplit clients) clients position act := by
  intro hchat
  obtain ⟨i, _, hi⟩ := List.mem_flatMap.mp hact
  simp only [Option.toList_some, List.cons_append, List.nil_append, List.mem_cons,
    List.not_mem_nil, or_false] at hi
  rcases hi with rfl | rfl
  · refine ⟨hposition, _, _, rfl, ?_, ?_⟩
    · rw [randomOffline]
      omega
    · rw [offlineSplit] at hposition
      have hpos : 0 < clients - offlineSplit clients := by
        rw [offlineSplit]
        omega
      have hmod := Nat.mod_lt (draws client.id i) hpos
      rw [randomOffline]
      omega
  · cases hchat

lemma message_passage (idle : world.isIdle) (draws : Draws) (params : RunParams)
    (h : (world.messageOffline draws params).interrupted = false) :
    Passage (Lawful world.split world.agents.length)
      (Following (Messaging world.split params.messagesPerClient)) world
      (world.messageMoves draws params) (world.messageOffline draws params) := by
  by_cases hsmall : world.agents.length = world.split
  · -- only where there are no clients at all, so nobody is to send anything
    rw [messageOffline, if_pos hsmall, messageMoves, if_pos hsmall]
    have hnoted := @note_passage _ _ (Lawful world.split world.agents.length) idle .warn
      "[OfflineMessage] Population too small to take anyone offline"
    refine { hnoted with fits := fun {position agent} ha => ?_ }
    have hlt := (List.getElem?_eq_some_iff.mp ha).1
    rw [split, offlineSplit] at hsmall
    omega
  · rw [messageOffline, if_neg hsmall] at h ⊢
    rw [messageMoves, if_neg hsmall]
    have hidle := (@note_passage _ _ Silent idle .info
      "[OfflineMessage] Sending to offline clients").idle
    refine Passage.of_note idle
      (@assign_passage _ _ _ _ hidle (world.messageRoutine draws params) h ?_ ?_)
    · intro position agent standing story _ stands htale
      refine ⟨_, ?_, htale⟩
      rw [messageRoutine]
      by_cases hauth : agent.client.isAuthenticated
      · rw [if_pos hauth]
        by_cases hposition : position < world.split
        · rw [if_pos hposition]
          exact ⟨offlineRoutine_talks, fun hle => absurd hposition (Nat.not_lt_of_le hle),
            fun _ _ => countP_offlineRoutine⟩
        · rw [if_neg hposition]
          exact ⟨by simp, fun _ => rfl, fun hlt => absurd hlt hposition⟩
      · rw [if_neg hauth]
        refine ⟨by simp, fun _ => rfl, fun _ hrunning => ?_⟩
        simp [Client.isAuthenticated, stands.state, hrunning] at hauth
    · intro position agent act _ hact
      rw [messageRoutine] at hact
      split at hact
      · split at hact
        · next hposition => exact message_lawful hposition hact
        · cases hact
      · cases hact

/-! ### The whole run -/

lemma interrupted_of_message {draws : Draws} {params : RunParams}
    (h : (world.messageOffline draws params).interrupted = false) : world.interrupted = false := by
  rw [messageOffline] at h
  split at h
  · exact interrupted_of_note h
  · exact interrupted_of_note (interrupted_of_assign h)

/-- The second half is stopped, then the first half sends messages, and then the second half connects
again. -/
def Phases (half messages : Nat) : Nat → Standing → List Incident → Prop :=
  Passage.Then (Following (GivenToSecond half [.stop]))
    (Passage.Then (Following (Messaging half messages))
      (Following fun position _ acts => ∃ limit interval,
        acts = if half ≤ position then [.connect limit, .authenticate, .start interval] else []))

theorem offline_passage (idle : world.isIdle) {draws : Draws} {params : RunParams}
    (h : (world.runOfflineMessage draws params).interrupted = false) :
    Passage (Lawful world.split world.agents.length) (Phases world.split params.messagesPerClient)
      world (world.runOfflineMoves draws params) (world.runOfflineMessage draws params) := by
  have hreconnected : (world.messaged draws params).reconnectOffline.interrupted = false :=
    interrupted_of_note (interrupted_of_rest h)
  have hmessaged : (world.messaged draws params).interrupted = false :=
    interrupted_of_note (interrupted_of_assign hreconnected)
  have hsent : (world.takenOffline.messageOffline draws params).interrupted = false :=
    interrupted_of_rest hmessaged
  have hgone : world.disconnectOffline.interrupted = false :=
    interrupted_of_rest (interrupted_of_message hsent)
  have stopped : Passage Silent (Following (GivenToSecond world.split [.stop])) world
      (world.disconnectMoves ++ world.disconnectOffline.restMoves world.settings.offlineSettle)
      world.takenOffline :=
    Passage.rest (secondHalf_passage idle (List.forall_mem_singleton.mpr rfl) hgone) _
  have sent : Passage (Lawful world.takenOffline.split world.takenOffline.agents.length)
      (Following (Messaging world.takenOffline.split params.messagesPerClient)) world.takenOffline
      (world.takenOffline.messageMoves draws params ++
        (world.takenOffline.messageOffline draws params).restMoves world.settings.offlineSettle)
      (world.messaged draws params) :=
    Passage.rest (message_passage stopped.idle draws params hsent) _
  have back : Passage Silent
      (Following (GivenToSecond (world.messaged draws params).split
        (world.messaged draws params).reconnectActs)) (world.messaged draws params)
      ((world.messaged draws params).reconnectMoves ++
        (world.returned draws params).restMoves
          (world.returned draws params).settings.offlineDeliveryWait)
      (world.runOfflineMessage draws params) := by
    refine Passage.rest (.note (secondHalf_passage sent.idle (fun act hact => ?_) hreconnected) _ _) _
    simp only [List.mem_cons, List.not_mem_nil, or_false] at hact
    rcases hact with rfl | rfl | rfl <;> rfl
  have hlength : world.takenOffline.agents.length = world.agents.length := stopped.length
  have hsplit : world.takenOffline.split = world.split := congrArg offlineSplit hlength
  have hsplit' : (world.messaged draws params).split = world.split :=
    congrArg offlineSplit (sent.length.trans hlength)
  rw [hlength, hsplit] at sent
  rw [hsplit'] at back
  have hlawful (position : Nat) (act : Act) (hact : Silent position act) :
      Lawful world.split world.agents.length position act := hact.lawful _ _
  refine (stopped.allowing hlawful).trans (sent.trans ((back.allowing hlawful).imp ?_))
  rintro position standing story ⟨acts, hacts, htale⟩
  exact ⟨acts, ⟨_, _, hacts⟩, htale⟩

/-- A client that was new has stayed online all the time, or was taken offline and came back. -/
def InHalves (half messages position : Nat) (standing : Standing) (story : List Incident) : Prop :=
  standing = ⟨.disconnected, false⟩ →
    if position < half then Stayed messages story else Returned story

lemma inHalves_of_phases {half messages position : Nat} {standing : Standing}
    {story : List Incident}
    (h : Passage.Then Admitted (Phases half messages) position standing story) :
    InHalves half messages position standing story := by
  rintro rfl
  obtain ⟨first, _, rfl, hadmitted, stopped, _, rfl, ⟨_, rfl, hstopped⟩, sent, back, rfl,
    ⟨acts, ⟨hchats, hnone, hcount⟩, hsent⟩, _, ⟨limit, interval, rfl⟩, hback⟩ := h
  have hfirst := hadmitted rfl
  -- what the loops note until a client is taken offline, or asked to write, is part of its admission
  by_cases hposition : position < half
  · rw [if_pos hposition]
    rw [if_neg (Nat.not_le_of_lt hposition)] at hstopped hback
    refine ⟨first ++ stopped, sent ++ back, acts, by simp, hfirst.eased rfl hstopped, ?_, hchats, ?_⟩
    · rw [Standing.afterAll_append]
      exact hsent.eased hback
    · rw [Standing.afterAll_append]
      exact hcount hposition
  · rw [if_neg hposition]
    have hle := Nat.le_of_not_lt hposition
    rw [if_pos hle] at hstopped hback
    rw [hnone hle] at hsent
    obtain ⟨loops, rfl, hloops⟩ := hstopped.of_stop
    have hoffline : Standing.afterAll (Standing.afterAll ⟨.disconnected, false⟩ first)
        (loops ++ [.stopped]) = ⟨.stopped, false⟩ := Standing.afterAll_append _ _ _
    rw [hoffline] at hsent hback
    obtain rfl := hsent.of_alone rfl
    exact ⟨first ++ loops, back, by simp, hfirst.eased rfl hloops, hback.admission⟩

end

/-! ### The partition -/

/-- What is noted of a client that connects once, and is not stopped. -/
structure Remained (story : List Incident) : Prop where
  parts : ∃ first later, story = first ++ later ∧ Admission first ∧
    ∀ incident ∈ later, incident.ofLoop ∨ incident.ofChat
  attempts : Incident.tally story .connectionsAttempted = 1
  unstopped : .stopped ∉ story

/-- The first half of so many clients stays online and writes to the second half, which is stopped and
connects again. -/
structure Partitions (world : World σ) (count : Nat) (moves : List Happening) (after : World σ) :
    Prop where
  attempts : after.stats.counters.get .connectionsAttempted =
    world.stats.counters.get .connectionsAttempted + (count + (count - offlineSplit count))
  told : ∃ told : List (UInt64 × Incident), after.doings = world.doings ++ told ∧
    (∀ entry ∈ told, 0 < entry.1.toNat ∧ entry.1.toNat ≤ count) ∧
    (∀ number, 0 < number → number ≤ offlineSplit count → Remained (toldOf number told)) ∧
    ∀ number, offlineSplit count < number → number ≤ count → Returned (toldOf number told)
  frames : ∀ entry ∈ (world.populated count).trace written moves,
    Permitted (offlineSplit count) count entry.2

/-- Everybody has logged in whenever asked to and is running, and all messages are sent. -/
structure Fulfilled (world : World σ) (params : RunParams) (after : World σ) : Prop where
  logins : after.stats.counters.get .authSucceeded =
    world.stats.counters.get .authSucceeded +
      (params.clients + (params.clients - offlineSplit params.clients))
  messages : after.stats.counters.get .messagesSent =
    world.stats.counters.get .messagesSent + offlineSplit params.clients * params.messagesPerClient
  clients : after.agents.length = params.clients
  running : ∀ agent ∈ after.agents, agent.client.state = .running

section

variable {world : World σ} {count messages : Nat} {moves : List Happening} {after : World σ}

lemma Passage.partitions {half : Nat} (hhalf : half = offlineSplit count)
    (passage : Passage (Lawful half count) (InHalves half messages) (world.populated count) moves after)
    (hcount : count < 2 ^ 63) : world.Partitions count moves after := by
  subst hhalf
  have hle : offlineSplit count ≤ count := Nat.div_le_self _ _
  have numbered := (world.populated_calm (by omega : count < 2 ^ 64)).numbered
  have hstory {position : Nat} (hposition : position < count) :
      if position < offlineSplit count then
        Stayed messages ((world.populated count).notes position moves)
      else Returned ((world.populated count).notes position moves) := by
    have ha := List.getElem?_eq_getElem ((length_populated world count).symm ▸ hposition)
    exact passage.fits ha _ (populated_stands ha) rfl
  refine ⟨?_, ⟨_, by rw [passage.doings, doings_populated], fun entry he => ?_, fun number hpos hlast =>
    ?_, fun number hfirst hlast => ?_⟩, ?_⟩
  · rw [passage.counted, length_populated, ← sum_halves _ _ hle]
    refine congrArg _ (Finset.sum_congr rfl fun position hp => ?_)
    have hone := hstory (Finset.mem_range.mp hp)
    split at hone
    · rw [if_pos ‹_›, hone.attempted]
    · rw [if_neg ‹_›, hone.attempted.1]
  · obtain ⟨position, agent, ha, hnumber⟩ := numbered.mem_happened he
    have hlt := (populated_agent ha).1
    omega
  · obtain ⟨position, rfl⟩ : ∃ position, number = position + 1 := ⟨number - 1, by omega⟩
    have hone := hstory (by omega : position < count)
    rw [if_pos (by omega)] at hone
    rw [numbered.toldOf_happened]
    exact ⟨hone.parts, hone.attempted, hone.unstopped⟩
  · obtain ⟨position, rfl⟩ : ∃ position, number = position + 1 := ⟨number - 1, by omega⟩
    have hone := hstory (by omega : position < count)
    rw [if_neg (by omega)] at hone
    rwa [numbered.toldOf_happened]
  · exact written_permitted numbered hcount hle fun position act hact => passage.allowed hact

lemma populated_hosted (world : World σ) (count : Nat) : (world.populated count).Hosted where
  agents := fun agent ha => by
    obtain ⟨position, ha⟩ := List.getElem?_of_mem ha
    have stands := populated_stands ha
    rw [(populated_agent ha).2] at stands ⊢
    exact ⟨stands.wired, stands.ready, rfl⟩
  keeps := fun agent ha conn hconn => by
    obtain ⟨position, ha⟩ := List.getElem?_of_mem ha
    rw [(populated_agent ha).2] at hconn
    cases hconn
  apart := fun position place agent other ha _ _ conn hconn => by
    rw [(populated_agent ha).2] at hconn
    cases hconn

lemma Passage.fulfilled {params : RunParams}
    (passage : Passage (Lawful (offlineSplit params.clients) params.clients)
      (InHalves (offlineSplit params.clients) params.messagesPerClient)
      (world.populated params.clients) moves after)
    (hobliges : (world.populated params.clients).Throughout obliges moves) :
    world.Fulfilled params after := by
  have hle : offlineSplit params.clients ≤ params.clients := Nat.div_le_self _ _
  have hlength := passage.length.trans (length_populated world params.clients)
  have hfine := (populated_hosted world params.clients).notes_fine hobliges
  have hstory {position : Nat} {agent : Agent}
      (ha : (world.populated params.clients).agents[position]? = some agent) :=
    passage.fits ha _ (populated_stands ha) rfl
  have hagent {position : Nat} (hp : position ∈ Finset.range params.clients) :=
    List.getElem?_eq_getElem
      ((length_populated world params.clients).symm ▸ Finset.mem_range.mp hp)
  refine ⟨?_, ?_, hlength, fun agent' ha' => ?_⟩
  · rw [passage.counted, length_populated, ← sum_halves _ _ hle]
    refine congrArg _ (Finset.sum_congr rfl fun position hp => ?_)
    have hone := hstory (hagent hp)
    split at hone
    · rw [if_pos ‹_›, (hone.running (hfine position)).2.1]
    · rw [if_neg ‹_›, (hone.running (hfine position) ⟨.disconnected, false⟩).2]
  · rw [passage.counted, length_populated, ← sum_first _ _ params.messagesPerClient hle]
    refine congrArg _ (Finset.sum_congr rfl fun position hp => ?_)
    have hone := hstory (hagent hp)
    split at hone
    · rw [if_pos ‹_›, (hone.running (hfine position)).2.2]
    · rw [if_neg ‹_›, hone.attempted.2]
  · obtain ⟨position, ha'⟩ := List.getElem?_of_mem ha'
    obtain ⟨agent, ha⟩ := passage.agent_before ha'
    rw [(passage.stands ha ha' _ (populated_stands ha)).state]
    have hone := hstory ha
    split at hone
    · exact (hone.running (hfine position)).1
    · exact (hone.running (hfine position) _).1

/-- Setting up and taking half of the population offline, for any population and any server: who
connects how often, who is stopped, who writes to whom, and what comes of it if the server obliges. -/
theorem offline_partitions (world : World σ) (draws : Draws) {params : RunParams}
    (hcount : params.clients < 2 ^ 63)
    (h : ((world.setUp params.clients).1.runOfflineMessage draws params).interrupted = false) :
    let start := world.populated params.clients
    let moves := world.setUpMoves params.clients ++
      (world.setUp params.clients).1.runOfflineMoves draws params
    let after := (world.setUp params.clients).1.runOfflineMessage draws params
    (start.run moves).Same after ∧ world.Partitions params.clients moves after ∧
      (start.Throughout obliges moves → world.Fulfilled params after) := by
  intro start moves after
  have hmessaged : ((world.setUp params.clients).1.messaged draws params).interrupted = false :=
    interrupted_of_note (interrupted_of_assign (interrupted_of_note (interrupted_of_rest h)))
  have hsetUp : (world.setUp params.clients).1.interrupted = false :=
    interrupted_of_note (interrupted_of_assign (interrupted_of_rest
      (interrupted_of_message (interrupted_of_rest hmessaged))))
  have ready := (setUp_passage (by omega : params.clients < 2 ^ 64) hsetUp).1
  have hlength := ready.length.trans (length_populated world params.clients)
  have hsplit : (world.setUp params.clients).1.split = offlineSplit params.clients :=
    congrArg offlineSplit hlength
  have offline := offline_passage ready.idle h
  rw [hlength, hsplit] at offline
  have whole := ((ready.allowing fun position act hact => hact.lawful _ _).trans offline).imp
    fun _ _ _ => inHalves_of_phases
  exact ⟨whole.same, whole.partitions rfl hcount, whole.fulfilled⟩

end

/-- A server that accepts everybody and acknowledges every AUTH. -/
def welcoming : World Script where
  net := { peer := Script.peer, memory := {} }
  settings := { batchSize := 2, offlineSettleMs := 0, offlineDeliveryWaitMs := 0 }

theorem welcoming_offline_partitions :
    let params : RunParams := { clients := 3, messagesPerClient := 2 }
    let draws : Draws := fun _ message => message
    let set := (welcoming.setUp params.clients).1
    let moves := welcoming.setUpMoves params.clients ++ set.runOfflineMoves draws params
    let after := set.runOfflineMessage draws params
    after.interrupted = false ∧
    (welcoming.populated params.clients).Throughout obliges moves ∧
    welcoming.Partitions params.clients moves after ∧ welcoming.Fulfilled params after ∧
    after.stats.counters.get .connectionsAttempted = 5 := by
  intro params draws set moves after
  have hends : after.interrupted = false := by decide +kernel
  have hobliges : (welcoming.populated params.clients).Throughout obliges moves := by decide +kernel
  obtain ⟨_, hpartitions, hfulfilled⟩ :=
    @offline_partitions _ welcoming draws params (by decide) hends
  exact ⟨hends, hobliges, hpartitions, hfulfilled hobliges, by decide +kernel⟩

end ChatLoad.World
