import ChatLoad.Proofs.Scenario.Population
import ChatLoad.Proofs.World.Calls

/-! Direct messages and group messages: whoever is logged in sends all of them, to other clients of the
population or to sessions that there are, and every one is accounted for. -/

namespace ChatLoad

/-! ### Whom a message is for -/

/-- Of `count` clients, this one writes to another. -/
def ToPeer (count : Nat) (id : UInt64) (call : Int64 → Chat) : Prop :=
  ∃ target content, (∀ clock, call clock = Chat.single clock id.toInt64 (Int64.ofNat target) content) ∧
    0 < target ∧ target ≤ count ∧ target ≠ id.toNat ∧
    (count < 2 ^ 63 → (Int64.ofNat target).toInt = target)

/-- The client writes to one of the sessions, and to nobody in particular. -/
def ToSession (sessions : Nat) (id : UInt64) (call : Int64 → Chat) : Prop :=
  ∃ session content,
    (∀ clock, call clock = Chat.group clock id.toInt64 (Int64.ofNat session) content ∧
      (call clock).targetId = 0) ∧
    0 < session ∧ session ≤ sessions ∧ (sessions < 2 ^ 63 → (Int64.ofNat session).toInt = session)

lemma randomPeer?_spec {count : Nat} (h : 2 ≤ count) (draw : Nat) (self : UInt64) :
    ∃ target, randomPeer? draw self count = some target ∧ 0 < target ∧ target ≤ count ∧
      target ≠ self.toNat := by
  have hlt := Nat.mod_lt draw (by omega : 0 < count - 1)
  refine ⟨_, if_neg (Nat.not_lt_of_le h), ?_⟩
  split <;> omega

/-- Each of the others is drawn by one number. -/
lemma existsUnique_draw {count other : Nat} {self : UInt64} (hpos : 0 < self.toNat)
    (hself : self.toNat ≤ count) (hother : 0 < other) (hle : other ≤ count)
    (hne : other ≠ self.toNat) :
    ∃! draw, draw < count - 1 ∧ randomPeer? draw self count = some other := by
  have hdraw {draw : Nat} (hlt : draw < count - 1) : randomPeer? draw self count =
      some (if self.toNat ≤ 1 + draw then 1 + draw + 1 else 1 + draw) := by
    rw [randomPeer?, if_neg (by omega), Nat.mod_eq_of_lt hlt]
  refine ⟨if self.toNat < other then other - 2 else other - 1, ⟨?_, ?_⟩, ?_⟩
  · split <;> omega
  · rw [hdraw (by split <;> omega), Option.some.injEq]
    split <;> split <;> omega
  · rintro draw ⟨hlt, heq⟩
    rw [hdraw hlt, Option.some.injEq] at heq
    split at heq <;> split <;> omega

namespace World

variable {σ : Type} {world : World σ}

/-! ### Populations -/

/-- So many clients, numbered from one on, that have nothing to do, whatever they have been through since
they were new. -/
structure Population (world : World σ) (count : Nat) : Prop where
  length : world.agents.length = count
  numbered : world.Numbered
  idle : world.isIdle
  grown : ∃ (start : World σ) (moves : List Happening), start.Unused ∧
    (∀ agent ∈ start.agents, agent.wait = .nothing) ∧ (start.run moves).Same world

lemma Population.sound {count : Nat} (population : world.Population count) : world.Sound := by
  obtain ⟨start, moves, unused, hwait, same⟩ := population.grown
  have sound : start.Sound := by
    intro agent ha
    obtain ⟨id, settings, hclient⟩ := unused agent ha
    rw [hclient, hwait agent ha]
    exact ⟨_, Client.fresh_stands id settings⟩
  exact (sound.run moves).same same

lemma setUp_population {count : Nat} (hcount : count < 2 ^ 64)
    (h : (world.setUp count).1.interrupted = false) : (world.setUp count).1.Population count := by
  have passage := (setUp_passage hcount h).1
  refine ⟨passage.length.trans (length_populated world count),
    passage.numbered (world.populated_calm hcount).numbered, passage.idle,
    world.populated count, world.setUpMoves count, fun agent ha => ?_, fun agent ha => ?_,
    passage.same⟩
  all_goals
    obtain ⟨position, hp⟩ := List.getElem?_of_mem ha
    rw [(populated_agent hp).2]
  exact ⟨_, _, rfl⟩

/-! ### What the routines call for -/

section

variable {draws : Draws} {settings : Settings} {params : RunParams} {client : Client}

lemma sendPaused_talks {count : Nat} {pause : Duration} {message : Nat → Option Act}
    (hchat : ∀ i, ∀ act ∈ message i, act.isChat) :
    ∀ act ∈ sendPaused count pause message, act.isChat ∨ act.isPause := by
  intro act hact
  obtain ⟨i, _, hi⟩ := List.mem_flatMap.mp hact
  rcases List.mem_append.mp hi with hmine | hpause
  · exact .inl (hchat i act (Option.mem_toList.mp hmine))
  · rw [List.mem_singleton.mp hpause]
    exact .inr rfl

lemma filterMap_sendPaused (count : Nat) (pause : Duration) (message : Nat → Option Act)
    (client : Client) :
    (sendPaused count pause message).filterMap client.message? =
      (List.range count).filterMap fun i => (message i).bind client.message? := by
  rw [sendPaused, List.filterMap_flatMap, List.filterMap_eq_flatMap_toList]
  refine List.flatMap_congr fun i _ => ?_
  have hpause : [Act.pause pause].filterMap client.message? = [] := rfl
  rw [List.filterMap_append, hpause, List.append_nil]
  cases message i with
  | none => rfl
  | some act => cases act <;> rfl

lemma calls_sendPaused {count : Nat} {pause : Duration} {message : Nat → Option Act}
    {call : Nat → Int64 → Chat} (h : ∀ i, (message i).bind client.message? = some (call i)) :
    (sendPaused count pause message).filterMap client.message? = (List.range count).map call := by
  rw [filterMap_sendPaused]
  simp only [h]
  exact congrFun List.filterMap_eq_map' _

lemma singleRoutine_talks :
    ∀ act ∈ singleRoutine draws settings params client, act.isChat ∨ act.isPause := by
  intro act hact
  rw [singleRoutine] at hact
  split at hact
  · cases hact
  · refine sendPaused_talks (fun i act hact => ?_) act hact
    obtain ⟨target, _, rfl⟩ := Option.map_eq_some_iff.mp hact
    rfl

lemma singleRoutine_calls :
    let calls := (singleRoutine draws settings params client).filterMap client.message?
    calls.length = (if params.clients < 2 then 0 else params.messagesPerClient) ∧
      ∀ call ∈ calls, ToPeer params.clients client.id call := by
  rw [singleRoutine]
  split
  · exact ⟨rfl, fun _ hcall => by cases hcall⟩
  · next hclients =>
    choose target htarget hpos hle hne using fun i =>
      randomPeer?_spec (Nat.le_of_not_lt hclients) (draws client.id i) client.id
    have hcalls := @calls_sendPaused client params.messagesPerClient settings.sendInterval
      (fun i => (randomPeer? (draws client.id i) client.id params.clients).map fun target =>
        .single (Int64.ofNat target) s!"Hello from {client.id.toNat}, msg #{i}")
      (fun i clock => Chat.single clock client.id.toInt64 (Int64.ofNat (target i))
        s!"Hello from {client.id.toNat}, msg #{i}")
      fun i => by rw [htarget]; rfl
    rw [hcalls]
    refine ⟨by simp, fun call hcall => ?_⟩
    obtain ⟨i, _, rfl⟩ := List.mem_map.mp hcall
    exact ⟨target i, _, fun _ => rfl, hpos i, hle i, hne i,
      fun hcount => Int64.toInt_ofNat_of_lt (Nat.lt_of_le_of_lt (hle i) hcount)⟩

lemma groupRoutine_talks :
    ∀ act ∈ groupRoutine draws settings params client, act.isChat ∨ act.isPause := by
  refine sendPaused_talks fun i act hact => ?_
  obtain rfl := Option.some.inj hact
  rfl

lemma groupRoutine_calls (hgroups : params.groups ≠ 0) :
    let calls := (groupRoutine draws settings params client).filterMap client.message?
    calls.length = params.messagesPerClient ∧
      ∀ call ∈ calls, ToSession params.groups client.id call := by
  have hcalls := @calls_sendPaused client params.messagesPerClient settings.sendInterval
    (fun i => some (.group (Int64.ofNat (randomSession (draws client.id i) params.groups))
      s!"Group msg from {client.id.toNat}, msg #{i}"))
    (fun i clock => Chat.group clock client.id.toInt64
      (Int64.ofNat (randomSession (draws client.id i) params.groups))
      s!"Group msg from {client.id.toNat}, msg #{i}")
    fun _ => rfl
  rw [groupRoutine, hcalls]
  refine ⟨by simp, fun call hcall => ?_⟩
  obtain ⟨i, _, rfl⟩ := List.mem_map.mp hcall
  have hle : randomSession (draws client.id i) params.groups ≤ params.groups := by
    have hlt := Nat.mod_lt (draws client.id i) (Nat.pos_of_ne_zero hgroups)
    rw [randomSession]
    omega
  have hpos : 0 < randomSession (draws client.id i) params.groups := by
    rw [randomSession]
    omega
  exact ⟨_, _, fun _ => ⟨rfl, rfl⟩, hpos, hle,
    fun hcount => Int64.toInt_ofNat_of_lt (Nat.lt_of_le_of_lt hle hcount)⟩

end

/-! ### The runs -/

section

variable (world : World σ) (draws : Draws) (params : RunParams)

def singleOpening : World σ :=
  world.note .info s!"[SingleChat] Sending {params.messagesPerClient} messages per client"

def singleMoves : List Happening :=
  (world.singleOpening params).assignMoves
    (toAuthenticated fun _ client => singleRoutine draws world.settings params client)

def groupOpening : World σ :=
  world.note .info
    s!"[GroupChat] {params.groups} groups, {params.messagesPerClient} messages per client"

def groupMoves : List Happening :=
  if params.groups = 0 then []
  else
    (world.groupOpening params).assignMoves
      (toAuthenticated fun _ client => groupRoutine draws world.settings params client)

variable {world}

lemma Population.opened {count : Nat} (population : world.Population count) (level : Level)
    (text : String) :
    (world.note level text).Sound ∧ (world.note level text).Numbered ∧
      (world.note level text).isIdle :=
  ⟨population.sound.same (world.note_same level text).symm, population.numbered, population.idle⟩

lemma runSingleChat_sends (population : world.Population params.clients) :
    world.Sends (world.singleMoves draws params) (world.runSingleChat draws params)
      (if params.clients < 2 then 0 else params.messagesPerClient) (ToPeer params.clients) := by
  obtain ⟨sound, numbered, idle⟩ := population.opened .info
    s!"[SingleChat] Sending {params.messagesPerClient} messages per client"
  exact .of_note (assignAuthenticated_sends sound numbered idle (fun _ _ => singleRoutine_talks)
    (fun _ _ => singleRoutine_calls.2) fun _ _ => singleRoutine_calls.1)

lemma runGroupChat_sends (population : world.Population params.clients) :
    world.Sends (world.groupMoves draws params) (world.runGroupChat draws params)
      (if params.groups = 0 then 0 else params.messagesPerClient) (ToSession params.groups) := by
  rw [groupMoves, runGroupChat]
  by_cases hgroups : params.groups = 0
  · rw [if_pos hgroups, if_pos hgroups, if_pos hgroups]
    exact .of_note (sends_nothing _ _)
  · rw [if_neg hgroups, if_neg hgroups, if_neg hgroups]
    obtain ⟨sound, numbered, idle⟩ := population.opened .info
      s!"[GroupChat] {params.groups} groups, {params.messagesPerClient} messages per client"
    exact .of_note (assignAuthenticated_sends sound numbered idle (fun _ _ => groupRoutine_talks)
      (fun _ _ => (groupRoutine_calls hgroups).2) fun _ _ => (groupRoutine_calls hgroups).1)

end

/-- Of any population, those who are logged in send all their messages, whatever is drawn and whatever the
peer does: direct messages to others, each of whom is drawn by just one number, and group messages to the
sessions that there are. Each is sent, could not be written, or was refused because its client had been
stopped meanwhile, which leaves everything as it was. Alone, or without groups, nobody sends anything. -/
theorem chats_reach_others {params : RunParams} (population : world.Population params.clients)
    (draws : Draws) :
    world.Sends (world.singleMoves draws params) (world.runSingleChat draws params)
      (if params.clients < 2 then 0 else params.messagesPerClient) (ToPeer params.clients) ∧
    world.Sends (world.groupMoves draws params) (world.runGroupChat draws params)
      (if params.groups = 0 then 0 else params.messagesPerClient) (ToSession params.groups) ∧
    ∀ (self : UInt64) (other : Nat), 0 < self.toNat → self.toNat ≤ params.clients → 0 < other →
      other ≤ params.clients → other ≠ self.toNat →
      ∃! draw, draw < params.clients - 1 ∧ randomPeer? draw self params.clients = some other :=
  ⟨runSingleChat_sends draws params population, runGroupChat_sends draws params population,
    fun _ _ hpos hself hother hle hne => existsUnique_draw hpos hself hother hle hne⟩

/-- Acknowledges the first bytes it reads, and hangs up at the next. -/
def fickle : Peer Bool where
  accept _ acknowledged := (acknowledged, [])
  hear conn _ acknowledged :=
    (true, [{ action :=
      if acknowledged then .finish conn else .deliver conn (Frame.encode .ack 1 []) }])
  lose _ acknowledged := acknowledged

/-- One of three clients gets through. -/
def deserted : World Bool where
  net := { peer := fickle, memory := false, foreseen := [.accepts, .refuses, .refuses] }

theorem deserted_second_chat_refused :
    let params : RunParams := { clients := 3, messagesPerClient := 2, groups := 4 }
    let draws : Draws := fun _ message => message
    let world := (deserted.setUp 3).1
    let moves := world.singleMoves draws params
    let after := world.runSingleChat draws params
    world.Population 3 ∧ after.interrupted = false ∧
    (world.trace (ofMoves Client.calls) moves).length = 2 ∧
    after.stats.counters.get .messagesSent = 1 ∧
    (world.trace happened moves).countP (·.2.isUnsent) = 0 ∧
    (world.trace happened moves).countP (·.2.isRefused) = 1 ∧
    world.Sends (world.groupMoves draws params) (world.runGroupChat draws params) 2 (ToSession 4) ∧
    ∃! draw, draw < 2 ∧ randomPeer? draw 2 3 = some 3 := by
  intro params draws world moves after
  have population : world.Population 3 := setUp_population (by decide) (by decide +kernel)
  have hends : after.interrupted = false := by decide +kernel
  have hsent : after.stats.counters.get .messagesSent = 1 := by decide +kernel
  have hfirst : world.stats.counters.get .messagesSent = 0 := by decide +kernel
  have hunsent : (world.trace happened moves).countP (·.2.isUnsent) = 0 := by decide +kernel
  have hactive : world.authenticatedCount = 1 := by decide +kernel
  obtain ⟨single, group, others⟩ := @chats_reach_others _ world params population draws
  have htotal : (world.trace (ofMoves Client.calls) moves).length = 2 := by
    rw [single.total hends, hactive]
    rfl
  have hbalance := single.balance
  rw [htotal, hsent, hunsent, hfirst] at hbalance
  have hrefused : (world.trace happened moves).countP (·.2.isRefused) = 1 :=
    Nat.add_left_cancel (hbalance.trans rfl : 1 + _ = 1 + 1)
  exact ⟨population, hends, htotal, hsent, hunsent, hrefused, group,
    others 2 3 (by decide) (by decide) (by decide) (by decide) (by decide)⟩

end World

end ChatLoad
