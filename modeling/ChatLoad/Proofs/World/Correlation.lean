import ChatLoad.Proofs.Client.Requests
import ChatLoad.Proofs.World.Balance

/-! Requests and responses of a client that has its statistics to itself. Every chat is either still in
the table or has brought a sample, never both. -/

namespace ChatLoad

namespace World

variable {σ : Type}

/-! ### What a run has seen -/

def chatIds : World σ → Happening → List UInt64 :=
  ofMoves fun client _ _ wait => client.chatIds wait

def authIds : World σ → Happening → List UInt64 :=
  ofMoves fun client _ _ wait => client.authIds wait

def draws (world : World σ) (happening : Happening) : List UInt64 :=
  world.chatIds happening ++ world.authIds happening

def heard : World σ → Happening → List Frame :=
  ofMoves fun client net _ _ => client.heard net

/-- A chat was sent under the id, and no response to it has been heard since. -/
def Unanswered (world : World σ) (happenings : List Happening) (id : UInt64) : Prop :=
  ∃ before happening later, happenings = before ++ happening :: later ∧
    id ∈ (world.run before).chatIds happening ∧
    ∀ frame ∈ (world.run (before ++ [happening])).trace heard later,
      frame.kind.isChatResponse → frame.requestId ≠ id

lemma unanswered_nil (world : World σ) (id : UInt64) : ¬ world.Unanswered [] id := by
  rintro ⟨before, happening, later, heq, _⟩
  simp at heq

lemma unanswered_concat (world : World σ) (happenings : List Happening) (happening : Happening)
    (id : UInt64) :
    world.Unanswered (happenings ++ [happening]) id ↔
      id ∈ (world.run happenings).chatIds happening ∨
        world.Unanswered happenings id ∧
          ∀ frame ∈ (world.run happenings).heard happening,
            frame.kind.isChatResponse → frame.requestId ≠ id := by
  constructor
  · rintro ⟨before, first, later, heq, hid, hlater⟩
    rcases List.eq_nil_or_concat later with rfl | ⟨between, last, rfl⟩
    · obtain ⟨rfl, hfirst⟩ := List.append_inj' heq rfl
      cases hfirst
      exact .inl hid
    · rw [List.concat_eq_append, ← List.cons_append, ← List.append_assoc] at heq
      obtain ⟨rfl, hlast⟩ := List.append_inj' heq rfl
      cases hlast
      rw [List.concat_eq_append, trace_concat, ← run_append, List.append_assoc,
        List.singleton_append] at hlater
      refine .inr ⟨⟨before, first, between, rfl, hid, ?_⟩, ?_⟩
      · exact fun frame hf => hlater frame (List.mem_append_left _ hf)
      · exact fun frame hf => hlater frame (List.mem_append_right _ hf)
  · rintro (hid | ⟨⟨before, first, between, rfl, hid, hbetween⟩, hlast⟩)
    · refine ⟨happenings, happening, [], rfl, hid, ?_⟩
      simp [trace]
    · refine ⟨before, first, between ++ [happening], by simp, hid, ?_⟩
      rw [trace_concat, ← run_append, List.append_assoc, List.singleton_append]
      intro frame hf
      rcases List.mem_append.mp hf with hf | hf
      · exact hbetween frame hf
      · exact hlast frame hf

lemma Unanswered.mem_chatIds {world : World σ} {happenings : List Happening} {id : UInt64}
    (h : world.Unanswered happenings id) : id ∈ world.trace chatIds happenings := by
  obtain ⟨before, happening, later, rfl, hid, _⟩ := h
  rw [trace_append, trace]
  exact List.mem_append_right _ (List.mem_append_left _ hid)

lemma trace_subset {α : Type} {f g : World σ → Happening → List α}
    (h : ∀ world happening, f world happening ⊆ g world happening) (world : World σ)
    (happenings : List Happening) : world.trace f happenings ⊆ world.trace g happenings := by
  induction happenings generalizing world with
  | nil => exact List.Subset.refl _
  | cons happening later ih =>
    exact List.append_subset.mpr
      ⟨List.subset_append_of_subset_left _ (h world happening),
        List.subset_append_of_subset_right _ (ih _)⟩

lemma chatIds_subset_draws (world : World σ) (happenings : List Happening) :
    world.trace chatIds happenings ⊆ world.trace draws happenings :=
  trace_subset (fun _ _ => List.subset_append_left _ _) world happenings

lemma authIds_subset_draws (world : World σ) (happenings : List Happening) :
    world.trace authIds happenings ⊆ world.trace draws happenings :=
  trace_subset (fun _ _ => List.subset_append_right _ _) world happenings

/-! ### The table -/

/-- The table after a run in which so many samples were taken. -/
structure Tabled (world : World σ) (happenings : List Happening) (samples : Nat) (pending : Pending) :
    Prop where
  nodup : pending.ids.Nodup
  balance : samples + pending.length = (world.trace chatIds happenings).length
  unanswered : ∀ id, id ∈ pending.ids ↔ world.Unanswered happenings id
  auths : ∀ id ∈ world.trace authIds happenings, id ∉ pending.ids

namespace Tabled

variable {world : World σ} {happenings : List Happening} {happening : Happening} {samples : Nat}
  {pending : Pending}

lemma ids_subset_draws (t : world.Tabled happenings samples pending) :
    pending.ids ⊆ world.trace draws happenings := fun _ hm =>
  chatIds_subset_draws _ _ ((t.unanswered _).mp hm).mem_chatIds

lemma sent (t : world.Tabled happenings samples pending) {id : UInt64} (now : Duration)
    (hchat : (world.run happenings).chatIds happening = [id])
    (hauth : (world.run happenings).authIds happening = [])
    (hheard : (world.run happenings).heard happening = [])
    (hnew : id ∉ world.trace draws happenings) :
    world.Tabled (happenings ++ [happening]) samples (pending.insert id now) := by
  have hnot : id ∉ pending.ids := fun hm => hnew (t.ids_subset_draws hm)
  have hids : (pending.insert id now).ids = id :: pending.ids := by
    rw [Pending.ids_insert, List.filter_eq_self.mpr]
    intro other ho
    exact bne_iff_ne.mpr fun heq => hnot (heq ▸ ho)
  refine ⟨?_, ?_, ?_, ?_⟩
  · rw [hids]
    exact List.nodup_cons.mpr ⟨hnot, t.nodup⟩
  · have hbalance := t.balance
    rw [trace_concat, hchat, ← Pending.length_ids, hids, List.length_append, List.length_cons,
      Pending.length_ids, List.length_singleton]
    omega
  · intro other
    rw [unanswered_concat, hchat, hheard, hids, List.mem_cons, t.unanswered other]
    simp
  · intro other ho
    rw [trace_concat, hauth, List.append_nil] at ho
    rw [hids, List.mem_cons, not_or]
    refine ⟨?_, t.auths other ho⟩
    rintro rfl
    exact hnew (authIds_subset_draws _ _ ho)

lemma listened (t : world.Tabled happenings samples pending)
    (hchat : (world.run happenings).chatIds happening = [])
    (hauth : ∀ id ∈ (world.run happenings).authIds happening, id ∉ world.trace draws happenings) :
    world.Tabled (happenings ++ [happening])
      (samples + pending.matched ((world.run happenings).heard happening))
      (((world.run happenings).heard happening).foldl Pending.hear pending) := by
  refine ⟨Pending.nodup_foldl_hear t.nodup _, ?_, ?_, ?_⟩
  · have hbalance := t.balance
    have hmatched := Pending.matched_add_length ((world.run happenings).heard happening) t.nodup
    rw [trace_concat, hchat, List.append_nil]
    omega
  · intro id
    rw [unanswered_concat, hchat, Pending.mem_foldl_hear, t.unanswered id]
    simp
  · intro id hid
    rw [trace_concat] at hid
    rw [Pending.mem_foldl_hear, not_and]
    intro hm
    rcases List.mem_append.mp hid with hold | hnow
    · exact absurd hm (t.auths id hold)
    · exact absurd (t.ids_subset_draws hm) (hauth id hnow)

end Tabled

/-! ### One client on its own -/

/-- What is kept between what has been drawn, sent and heard, the table and the samples. -/
structure Correlated (id : UInt64) (world : World σ) (happenings : List Happening) (after : World σ)
    (agent : Agent) : Prop where
  alone : after.agents = [agent]
  owner : agent.client.id = id
  wired : agent.client.Wired agent.wait
  drawn : agent.client.drawn = UInt32.ofNat (world.trace draws happenings).length
  draws : world.trace draws happenings = Client.issued id (world.trace draws happenings).length
  table : world.Tabled happenings after.stats.latencyCount agent.client.pending

namespace Correlated

variable {id : UInt64} {world : World σ} {happenings : List Happening} {agent : Agent}
  {happening : Happening}

lemma drawId_eq (c : world.Correlated id happenings (world.run happenings) agent) :
    agent.client.drawId.1 =
      Client.requestId id (UInt32.ofNat (world.trace World.draws happenings).length) := by
  rw [← c.drawn, ← c.owner]
  rfl

lemma drawId_notMem (c : world.Correlated id happenings (world.run happenings) agent)
    (hn : (world.trace World.draws happenings).length + 1 ≤ 2 ^ 32 - 1) :
    agent.client.drawId.1 ∉ world.trace World.draws happenings := by
  have hnodup := Client.issued_nodup id hn
  rw [Client.issued_succ, ← c.draws, ← c.drawId_eq] at hnodup
  intro hmem
  exact (List.nodup_append.mp hnodup).2.2 _ hmem _ (List.mem_singleton_self _) rfl

lemma draws_concat (c : world.Correlated id happenings (world.run happenings) agent)
    {client : Client}
    (h : (world.run happenings).draws happening = [] ∧ client.drawn = agent.client.drawn ∨
      (world.run happenings).draws happening = [agent.client.drawId.1] ∧
        client.drawn = agent.client.drawn + 1) :
    client.drawn = UInt32.ofNat (world.trace World.draws (happenings ++ [happening])).length ∧
      world.trace World.draws (happenings ++ [happening]) =
        Client.issued id (world.trace World.draws (happenings ++ [happening])).length := by
  rw [trace_concat]
  rcases h with ⟨hd, hc⟩ | ⟨hd, hc⟩
  · rw [hd, hc, List.append_nil]
    exact ⟨c.drawn, c.draws⟩
  · rw [hd, hc, List.length_append, List.length_singleton]
    refine ⟨?_, ?_⟩
    · rw [c.drawn, UInt32.ofNat_add]
      rfl
    · rw [Client.issued_succ, ← c.draws, c.drawId_eq]

lemma move {position : Nat} {move : Move}
    (c : world.Correlated id happenings (world.run happenings) agent)
    (h : (world.run happenings).agents[position]? = some agent)
    (alone : ((world.run happenings).step (.client position move)).agents =
      [agent.moved (world.run happenings).net (world.run happenings).now move])
    (few : (world.trace World.draws (happenings ++ [.client position move])).length ≤ 2 ^ 32 - 1) :
    world.Correlated id (happenings ++ [.client position move])
      ((world.run happenings).step (.client position move))
      (agent.moved (world.run happenings).net (world.run happenings).now move) := by
  have hmoved := agent.client.moved (world.run happenings).net (world.run happenings).now agent.wait
    move
  have hstats := stats_step (world.run happenings) (.client position move)
  rw [ofMoves_client h, Client.noted] at hstats
  have hchat : (world.run happenings).chatIds (.client position move) =
    agent.client.chatIds agent.wait move := ofMoves_client h _ _
  have hauth : (world.run happenings).authIds (.client position move) =
    agent.client.authIds agent.wait move := ofMoves_client h _ _
  have hheard : (world.run happenings).heard (.client position move) =
    agent.client.heard (world.run happenings).net move := ofMoves_client h _ _
  obtain ⟨hid, hdraws⟩ := hmoved.draws c.wired
  rw [← hchat, ← hauth] at hdraws
  have hdrawn := c.draws_concat hdraws
  refine ⟨alone, hid.trans c.owner, hmoved.wired c.wired, hdrawn.1, hdrawn.2, ?_⟩
  have hnew (hdraw : (world.run happenings).draws (.client position move) ≠ []) :
      agent.client.drawId.1 ∉ world.trace World.draws happenings := by
    apply c.drawId_notMem
    have hpos := List.length_pos_iff.mpr hdraw
    rw [trace_concat, List.length_append] at few
    omega
  rcases hmoved.table c.wired with ⟨hc, hf, hp, hs⟩ | ⟨hc, hp, hs⟩
  · rw [← hchat] at hc
    have hdraw : (world.run happenings).draws (.client position move) ≠ [] := by
      simp [World.draws, hc]
    have hnone : (world.run happenings).authIds (.client position move) = [] := by
      rcases hdraws with ⟨hd, _⟩ | ⟨hd, _⟩
      · exact absurd hd hdraw
      · simpa [hc] using hd
    have htable := c.table.sent (world.run happenings).now hc hnone (hheard.trans hf) (hnew hdraw)
    rw [hstats, Stats.latencyCount_after, hs, List.length_nil, Nat.add_zero]
    simpa only [Agent.moved, hp] using htable
  · rw [← hchat] at hc
    rw [← hheard] at hp hs
    have hauths : ∀ request ∈ (world.run happenings).authIds (.client position move),
        request ∉ world.trace World.draws happenings := by
      intro request hr
      rcases hdraws with ⟨hd, _⟩ | ⟨hd, _⟩
      · rw [hc, List.nil_append] at hd
        rw [hd] at hr
        cases hr
      · have hreq : request = agent.client.drawId.1 := by
          rw [hc, List.nil_append] at hd
          simpa [hd] using hr
        rw [hreq]
        exact hnew (by simp [World.draws, hd])
    have htable := c.table.listened hc hauths
    rw [hstats, Stats.latencyCount_after, hs]
    simpa only [Agent.moved, hp] using htable

lemma pass (c : world.Correlated id happenings (world.run happenings) agent)
    (alone : ((world.run happenings).step happening).agents = [agent])
    (hstats : ((world.run happenings).step happening).stats = (world.run happenings).stats)
    (hsilent : ∀ {α : Type} (f : Client → Net σ → Duration → Wait → Move → List α),
      (world.run happenings).ofMoves f happening = []) :
    world.Correlated id (happenings ++ [happening]) ((world.run happenings).step happening)
      agent := by
  have hchat : (world.run happenings).chatIds happening = [] := hsilent _
  have hauth : (world.run happenings).authIds happening = [] := hsilent _
  have hheard : (world.run happenings).heard happening = [] := hsilent _
  have hnone : (world.run happenings).draws happening = [] := by
    rw [World.draws, hchat, hauth, List.nil_append]
  have hsame : agent.client.drawn = agent.client.drawn := rfl
  have hdraws := c.draws_concat (.inl ⟨hnone, hsame⟩)
  refine ⟨alone, c.owner, c.wired, hdraws.1, hdraws.2, ?_⟩
  have htable := c.table.listened hchat (by simp [hauth])
  rwa [hheard, ← hstats] at htable

lemma hears (c : world.Correlated id happenings (world.run happenings) agent)
    (happening : Happening) :
    ∃ next, ((world.run happenings).step happening).agents = [next] ∧
      ((world.run happenings).step happening).stats.latencyCount =
        (world.run happenings).stats.latencyCount +
          agent.client.pending.matched ((world.run happenings).heard happening) ∧
      ∀ request ∈ agent.client.pending.ids, request ∉ next.client.pending.ids ↔
        ∃ frame ∈ (world.run happenings).heard happening,
          frame.kind.isChatResponse ∧ frame.requestId = request := by
  rcases step_alone c.alone happening with
    ⟨position, move, rfl, h, hagents⟩ | ⟨hagents, hstats, hsilent⟩
  · have hmoved := agent.client.moved (world.run happenings).net (world.run happenings).now
      agent.wait move
    have hstats := stats_step (world.run happenings) (.client position move)
    rw [ofMoves_client h, Client.noted] at hstats
    have hheard : (world.run happenings).heard (.client position move) =
      agent.client.heard (world.run happenings).net move := ofMoves_client h _ _
    refine ⟨_, hagents, ?_⟩
    rw [hstats, Stats.latencyCount_after, hheard]
    rcases hmoved.table c.wired with ⟨_, hf, hp, hs⟩ | ⟨_, hp, hs⟩
    · refine ⟨by rw [hs, hf]; rfl, fun request hr => ?_⟩
      simp only [Agent.moved, hp, hf, Pending.ids_insert]
      by_cases heq : request = agent.client.drawId.1 <;> simp [heq, hr]
    · refine ⟨by rw [hs], fun request hr => ?_⟩
      simp only [Agent.moved, hp, Pending.mem_foldl_hear, hr, true_and]
      push Not
      rfl
  · have hheard : (world.run happenings).heard happening = [] := hsilent _
    refine ⟨agent, hagents, ?_⟩
    rw [hstats, hheard]
    exact ⟨rfl, fun request hr => by simp [hr]⟩

end Correlated

lemma Fresh.wired {world : World σ} (fresh : world.Fresh) {agent : Agent} (hagent : agent ∈ world.agents) :
    agent.client.Wired agent.wait := by
  obtain ⟨id, settings, hc⟩ := fresh.client agent hagent
  simp [Client.Wired, Client.mayLogIn, Client.isAuthenticated, hc, fresh.wait agent hagent,
    Wait.isLoggingIn]

lemma Fresh.correlated {world : World σ} (fresh : world.Fresh) {agent : Agent}
    (alone : world.agents = [agent]) : world.Correlated agent.client.id [] world agent := by
  obtain ⟨id, settings, hc⟩ := fresh.client agent (by simp [alone])
  refine ⟨alone, rfl, fresh.wired (by simp [alone]), ?_, rfl, ?_⟩
  · rw [hc]
    rfl
  · rw [hc, Stats.latencyCount, fresh.latencies]
    refine ⟨List.nodup_nil, rfl, ?_, by simp [trace]⟩
    intro request
    simpa [Pending.ids] using world.unanswered_nil request

theorem Fresh.run_correlated {world : World σ} (fresh : world.Fresh) {agent : Agent}
    (alone : world.agents = [agent]) (happenings : List Happening)
    (few : (world.trace draws happenings).length ≤ 2 ^ 32 - 1) :
    ∃ agent', world.Correlated agent.client.id happenings (world.run happenings) agent' := by
  induction happenings using List.reverseRecOn with
  | nil => exact ⟨agent, fresh.correlated alone⟩
  | append_singleton happenings happening ih =>
    have hbefore : (world.trace draws happenings).length ≤ 2 ^ 32 - 1 := by
      rw [trace_concat, List.length_append] at few
      omega
    obtain ⟨before, c⟩ := ih hbefore
    rw [run_append]
    rcases step_alone c.alone happening with
      ⟨position, move, rfl, h, hagents⟩ | ⟨hagents, hstats, hsilent⟩
    · exact ⟨_, c.move h hagents few⟩
    · exact ⟨before, c.pass hagents hstats hsilent⟩

lemma length_draws_le (world : World σ) (happenings : List Happening) :
    (world.trace draws happenings).length ≤ happenings.length := by
  induction happenings generalizing world with
  | nil => exact Nat.le_refl _
  | cons happening later ih =>
    have hone : (world.draws happening).length ≤ 1 := by
      rcases step_cases world happening with ⟨position, agent, move, rfl, h⟩ | ⟨_, _, hsilent⟩
      · rw [draws, chatIds, authIds, ofMoves_client h, ofMoves_client h]
        exact agent.client.length_draws_le agent.wait move
      · simp [draws, chatIds, authIds, hsilent]
    have hlater := ih (world.step happening)
    rw [trace, List.length_append, List.length_cons]
    omega

/-- A client that has its statistics to itself and does not run out of request ids. Every chat it sent
has either brought a sample or is still in the table; the table holds exactly the chats not answered
yet, and never an AUTH. A step takes samples and entries off the table only for the frames it hears,
and a frame does so only if it is a response whose request is in the table. -/
theorem correlation_conserves {world : World σ} (fresh : world.Fresh) {agent : Agent}
    (alone : world.agents = [agent]) (happenings : List Happening)
    (few : (world.trace draws happenings).length ≤ 2 ^ 32 - 1) :
    ∃ after, (world.run happenings).agents = [after] ∧
      after.client.drawn.toNat = (world.trace draws happenings).length ∧
      (world.run happenings).stats.latencyCount + after.client.pending.length =
        (world.trace chatIds happenings).length ∧
      (∀ id, id ∈ after.client.pending.ids ↔ world.Unanswered happenings id) ∧
      (∀ id ∈ world.trace authIds happenings, id ∉ after.client.pending.ids) ∧
      (∀ happening, ∃ next, ((world.run happenings).step happening).agents = [next] ∧
        ((world.run happenings).step happening).stats.latencyCount =
          (world.run happenings).stats.latencyCount +
            after.client.pending.matched ((world.run happenings).heard happening) ∧
        ∀ id ∈ after.client.pending.ids, id ∉ next.client.pending.ids ↔
          ∃ frame ∈ (world.run happenings).heard happening,
            frame.kind.isChatResponse ∧ frame.requestId = id) ∧
      ∀ (client : Client) now frame,
        ((client.handle now frame).2.filterMap Incident.sample?).length =
            (if frame.kind.isChatResponse ∧ frame.requestId ∈ client.pending.ids then 1 else 0) ∧
          (¬ (frame.kind.isChatResponse ∧ frame.requestId ∈ client.pending.ids) →
            (client.handle now frame).1 = client) := by
  obtain ⟨after, c⟩ := fresh.run_correlated alone happenings few
  refine ⟨after, c.alone, ?_, c.table.balance, c.table.unanswered, c.table.auths, c.hears, ?_⟩
  · rw [c.drawn, UInt32.toNat_ofNat']
    omega
  · intro client now frame
    refine ⟨client.handle_samples now frame, fun hno => ?_⟩
    rw [Client.handle_client, Pending.hear_of_unmatched hno]

def lone : World Unit where
  net := { peer := .quiet, memory := () }
  agents := [{ client := { id := 7 } }]

lemma lone_fresh : lone.Fresh :=
  fresh_of_new [7] rfl rfl rfl rfl

/-- The client is welcomed, loses its connection, and still tries to send two messages. -/
def letters : List Happening :=
  [.client 0 (.begin (.connect 5)), .peer (.deliver 0 (Frame.encode .ack 1 [])),
    .client 0 (.begin .authenticate), .peer (.reset 0),
    .client 0 (.begin (.single 2 "one")), .client 0 (.begin (.group 3 "two"))]

theorem lone_correlation_conserves :
    lone.Fresh ∧ lone.agents = [{ client := { id := 7 } }] ∧
    (lone.trace draws letters).length ≤ 2 ^ 32 - 1 ∧
    (lone.trace chatIds letters).length = 2 ∧
    ∃ after, (lone.run letters).agents = [after] ∧
      (lone.run letters).stats.latencyCount + after.client.pending.length = 2 := by
  have few : (lone.trace draws letters).length ≤ 2 ^ 32 - 1 :=
    Nat.le_trans (length_draws_le lone letters) (by decide)
  have chats : (lone.trace chatIds letters).length = 2 := by decide
  obtain ⟨after, hafter, _, hbalance, _⟩ := correlation_conserves lone_fresh rfl letters few
  exact ⟨lone_fresh, rfl, few, chats, after, hafter, hbalance.trans chats⟩

end World

end ChatLoad
