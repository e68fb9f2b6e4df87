import ChatLoad.Proofs.Client.Readers
import ChatLoad.Proofs.World.Balance

/-! What clients make of the bytes that arrive, after any run: each connection is cut into items in the
order of its bytes, however these arrive and whenever somebody looks. -/

namespace ChatLoad

open Item

namespace World

variable {σ : Type}

def arrives (conn : ConnId) (world : World σ) : Happening → Bytes
  | .peer action => world.net.arrival conn action
  | .agenda => world.net.brought conn (world.net.dueActions world.now)
  | .pass _ => []
  | .client position move =>
      match world.agents[position]? with
      | some agent => agent.client.gain world.net world.now agent.wait move conn
      | none => []

def takes (conn : ConnId) : World σ → Happening → List Item :=
  ofMoves fun client net now wait move => client.taken net now wait move conn

def delivered (world : World σ) (happenings : List Happening) (conn : ConnId) : Bytes :=
  world.trace (arrives conn) happenings

def taken (world : World σ) (happenings : List Happening) (conn : ConnId) : List Item :=
  world.trace (takes conn) happenings

/-- Of each connection with a reader, what was taken and what the reader has before it make up what was
delivered. -/
structure Followed (world : World σ) (happenings : List Happening) (after : World σ) : Prop where
  sound : after.net.Sound
  tidy : ∀ (position : Nat) (agent : Agent), after.agents[position]? = some agent →
    agent.client.Tidy after.net.links.length
  apart : ∀ (position position' : Nat) (agent agent' : Agent), after.agents[position]? = some agent →
    after.agents[position']? = some agent' →
    ∀ conn ∈ agent.client.conns, conn ∈ agent'.client.conns → position = position'
  untouched : ∀ conn, after.net.links.length ≤ conn →
    world.delivered happenings conn = [] ∧ world.taken happenings conn = []
  cuts : ∀ (position : Nat) (agent : Agent), after.agents[position]? = some agent →
    ∀ reader ∈ agent.client.readers,
      Cuts (world.delivered happenings reader.conn) (world.taken happenings reader.conn)
        (after.net.unread reader)

lemma delivered_concat (world : World σ) (happenings : List Happening) (happening : Happening)
    (conn : ConnId) :
    world.delivered (happenings ++ [happening]) conn =
      world.delivered happenings conn ++ (world.run happenings).arrives conn happening :=
  trace_concat _ _ _ _

lemma taken_concat (world : World σ) (happenings : List Happening) (happening : Happening)
    (conn : ConnId) :
    world.taken (happenings ++ [happening]) conn =
      world.taken happenings conn ++ (world.run happenings).takes conn happening :=
  trace_concat _ _ _ _

lemma Fresh.followed {world : World σ} (fresh : world.Fresh) : world.Followed [] world := by
  have hconns : ∀ agent ∈ world.agents, agent.client.readers = [] := by
    intro agent ha
    obtain ⟨id, settings, hc⟩ := fresh.client agent ha
    rw [hc]
    rfl
  refine ⟨?_, ?_, ?_, fun _ _ => ⟨rfl, rfl⟩, ?_⟩
  · intro conn
    have hnone : world.net.incoming conn = [] := by
      simp [Net.incoming, Net.link?, fresh.links]
    rw [hnone]
    exact Delivery.sound_nil
  · intro position agent h
    obtain ⟨id, settings, hc⟩ := fresh.client agent (List.mem_of_getElem? h)
    rw [hc]
    exact ⟨List.nodup_nil, by simp [Client.conns, Client.readers], List.nodup_nil,
      by simp [Client.listening]⟩
  · intro position position' agent agent' h _ conn hconn
    rw [Client.conns, hconns agent (List.mem_of_getElem? h)] at hconn
    cases hconn
  · intro position agent h reader hr
    rw [hconns agent (List.mem_of_getElem? h)] at hr
    cases hr

namespace Followed

variable {world : World σ} {happenings : List Happening} {happening : Happening}

lemma grow (f : world.Followed happenings (world.run happenings))
    (hagents : ((world.run happenings).step happening).agents = (world.run happenings).agents)
    (grown : (world.run happenings).net.Grown ((world.run happenings).step happening).net
      fun conn => (world.run happenings).arrives conn happening)
    (hsilent : ∀ conn, (world.run happenings).takes conn happening = []) :
    world.Followed (happenings ++ [happening]) ((world.run happenings).step happening) := by
  refine ⟨grown.sound, ?_, ?_, ?_, ?_⟩
  · intro position agent h
    rw [hagents] at h
    exact (f.tidy position agent h).keep grown.links rfl rfl rfl
  · rw [hagents]
    exact f.apart
  · intro conn hc
    obtain ⟨hd, ht⟩ := f.untouched conn (Nat.le_trans grown.links hc)
    rw [delivered_concat, taken_concat, hd, ht, grown.fresh conn hc, hsilent]
    exact ⟨rfl, rfl⟩
  · intro position agent h reader hr
    rw [hagents] at h
    have hcuts := (f.cuts position agent h reader hr).append
      ((world.run happenings).arrives reader.conn happening)
    rw [delivered_concat, taken_concat, hsilent, List.append_nil, Net.unread, grown.bytes]
    rwa [Net.unread, List.append_assoc] at hcuts

lemma move {position : Nat} {agent : Agent} {move : Move}
    (f : world.Followed happenings (world.run happenings))
    (h : (world.run happenings).agents[position]? = some agent) :
    world.Followed (happenings ++ [.client position move])
      ((world.run happenings).step (.client position move)) := by
  have hmoved := agent.client.moved (world.run happenings).net (world.run happenings).now
    agent.wait move
  have htidy := f.tidy position agent h
  have c := hmoved.continues f.sound htidy
  have harrives : ∀ conn, (world.run happenings).arrives conn (.client position move) =
      agent.client.gain (world.run happenings).net (world.run happenings).now agent.wait move
        conn := by
    intro conn
    simp only [arrives, h]
  have htakes : ∀ conn, (world.run happenings).takes conn (.client position move) =
      agent.client.taken (world.run happenings).net (world.run happenings).now agent.wait move
        conn := fun conn => ofMoves_client h _ _
  rw [← net_step_client h] at c
  have hconns : ∀ conn ∈ (agent.moved (world.run happenings).net (world.run happenings).now
      move).client.conns, conn ∈ agent.client.conns ∨
        conn = (world.run happenings).net.links.length := by
    intro conn hc
    obtain ⟨reader', hr, rfl⟩ := List.mem_map.mp hc
    rcases c.readers reader' hr with ⟨reader, hold, hconn, _⟩ | ⟨rfl, _⟩
    · exact .inl (hconn ▸ List.mem_map_of_mem hold)
    · exact .inr rfl
  have hknown : ∀ (other : Nat) (after : Agent), (world.run happenings).agents[other]? = some after →
      ∀ conn ∈ after.client.conns, conn ≠ (world.run happenings).net.links.length :=
    fun other after ho conn hc => Nat.ne_of_lt ((f.tidy other after ho).known conn hc)
  refine ⟨c.sound, ?_, ?_, ?_, ?_⟩
  · intro other after ha
    rcases agents_step_client h ha with ⟨rfl, rfl⟩ | ⟨_, hold⟩
    · exact c.tidy
    · exact (f.tidy other after hold).keep c.links rfl rfl rfl
  · intro first second one two hone htwo conn hc hc'
    rcases agents_step_client h hone with ⟨rfl, rfl⟩ | ⟨_, hold⟩ <;>
      rcases agents_step_client h htwo with ⟨rfl, rfl⟩ | ⟨_, hold'⟩
    · rfl
    · rcases hconns conn hc with hmem | hnew
      · exact f.apart _ _ _ _ h hold' conn hmem hc'
      · exact absurd hnew (hknown _ _ hold' conn hc')
    · rcases hconns conn hc' with hmem | hnew
      · exact f.apart _ _ _ _ hold h conn hc hmem
      · exact absurd hnew (hknown _ _ hold conn hc)
    · exact f.apart _ _ _ _ hold hold' conn hc hc'
  · intro conn hc
    obtain ⟨hd, ht⟩ := f.untouched conn (Nat.le_trans c.links hc)
    have hnot : conn ∉ agent.client.conns := fun hmem =>
      Nat.not_lt_of_le (Nat.le_trans c.links hc) (htidy.known conn hmem)
    rw [delivered_concat, taken_concat, hd, ht, harrives, htakes, c.fresh conn hc,
      (c.others conn hnot).1]
    exact ⟨rfl, rfl⟩
  · intro other after ha reader' hr
    rw [delivered_concat, taken_concat, harrives, htakes]
    rcases agents_step_client h ha with ⟨rfl, rfl⟩ | ⟨hne, hold⟩
    · rcases c.readers reader' hr with ⟨reader, hmem, hconn, hcuts⟩ | ⟨rfl, _⟩
      · rw [← hconn]
        exact ((f.cuts _ _ h reader hmem).append _).trans hcuts
      · obtain ⟨hd, ht⟩ := f.untouched _ (Nat.le_refl _)
        obtain ⟨htook, hb⟩ := c.others (world.run happenings).net.links.length fun hmem =>
          hknown _ _ h _ hmem rfl
        rw [Net.incoming_of_length_le (Nat.le_refl _)] at hb
        rw [hd, ht, htook, Net.unread, hb]
        exact .nil _
    · have hnot : reader'.conn ∉ agent.client.conns := fun hmem =>
        hne (f.apart _ _ _ _ hold h _ (List.mem_map_of_mem hr) hmem)
      obtain ⟨ht, hb⟩ := c.others _ hnot
      have hcuts := (f.cuts _ _ hold reader' hr).append (agent.client.gain
        (world.run happenings).net (world.run happenings).now agent.wait move reader'.conn)
      rw [ht, List.append_nil, Net.unread, hb]
      rwa [Net.unread, List.append_assoc] at hcuts

lemma step (f : world.Followed happenings (world.run happenings)) (happening : Happening) :
    world.Followed (happenings ++ [happening]) ((world.run happenings).step happening) := by
  cases happening with
  | peer action => exact f.grow rfl (Net.grown_apply f.sound action) fun _ => rfl
  | agenda => exact f.grow rfl (Net.grown_agenda f.sound _) fun _ => rfl
  | pass span => exact f.grow rfl (.refl f.sound) fun _ => rfl
  | client position move =>
    cases h : (world.run happenings).agents[position]? with
    | some agent => exact f.move h
    | none =>
      have hsame : (world.run happenings).step (.client position move) = world.run happenings := by
        simp only [World.step, h]
      have hgrown : (world.run happenings).net.Grown
          ((world.run happenings).step (.client position move)).net fun conn =>
            (world.run happenings).arrives conn (.client position move) := by
        simp only [arrives, h, hsame]
        exact .refl f.sound
      exact f.grow (by rw [hsame]) hgrown fun conn => by simp only [takes, ofMoves, h]

end Followed

theorem Fresh.run_followed {world : World σ} (fresh : world.Fresh) (happenings : List Happening) :
    world.Followed happenings (world.run happenings) :=
  run_induction fresh.followed (fun _ happening f => f.step happening) happenings

end World

end ChatLoad
