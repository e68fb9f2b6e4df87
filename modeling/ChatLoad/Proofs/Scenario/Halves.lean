import ChatLoad.Proofs.World.Passage
import ChatLoad.Proofs.World.Sending
import ChatLoad.Scenario.Run

/-! A population in two halves: one stays online and sends messages to the other, which goes offline and
comes back. -/

namespace ChatLoad

/-! ### Clients of each half -/

/-- What is noted of a client that stays online and is given so many messages to send. -/
def Stayed (messages : Nat) (story : List Incident) : Prop :=
  ∃ first later acts, story = first ++ later ∧ Admission first ∧
    Tale (Standing.afterAll ⟨.disconnected, false⟩ first) .nothing acts later ∧
    (∀ act ∈ acts, act.isChat ∨ act.isPause) ∧
    ((Standing.afterAll ⟨.disconnected, false⟩ first).state = .running →
      acts.countP Act.isChat = messages)

/-- What is noted of a client that is taken offline and comes back. -/
def Returned (story : List Incident) : Prop :=
  ∃ first second, story = first ++ .stopped :: second ∧ Admission first ∧ Admission second

lemma Incident.tally_of_messages {incidents : List Incident} {c : Counter}
    (h : ∀ incident ∈ incidents, incident.ofLoop ∨ incident.ofChat) (hc : c.isOfRoutine)
    (hnot : c ≠ .messagesSent) : Incident.tally incidents c = 0 := by
  refine tally_eq_zero fun incident hi => ?_
  rcases h incident hi with hloop | hchat
  · exact counters_ofLoop hloop hc
  · intro hmem
    cases incident with
    | chatSent => exact hnot (List.mem_singleton.mp hmem)
    | chatFailed =>
      obtain rfl := List.mem_singleton.mp hmem
      simp [Counter.isOfRoutine] at hc
    | chatRefused => cases hmem
    | _ => cases hchat

lemma Admission.unstopped {story : List Incident} (h : Admission story) : .stopped ∉ story := by
  obtain ⟨before, after, ok, rfl, hlogin, hstart⟩ := h
  intro hmem
  rcases List.mem_append.mp hmem with hbefore | hafter
  · cases hlogin <;> simp at hbefore
  · rw [Starting] at hstart
    split at hstart
    · obtain ⟨loops, rfl, hloops⟩ := hstart
      rcases List.mem_cons.mp hafter with heq | hloop
      · cases heq
      · cases hloops _ hloop
    · rw [hstart] at hafter
      cases hafter

namespace Stayed

variable {messages : Nat} {story : List Incident}

lemma parts (h : Stayed messages story) :
    ∃ first later, story = first ++ later ∧ Admission first ∧
      ∀ incident ∈ later, incident.ofLoop ∨ incident.ofChat := by
  obtain ⟨first, later, acts, rfl, hfirst, htale, hacts, _⟩ := h
  exact ⟨first, later, rfl, hfirst, htale.of_chats rfl hacts⟩

lemma unstopped (h : Stayed messages story) : .stopped ∉ story := by
  obtain ⟨first, later, rfl, hfirst, hlater⟩ := h.parts
  intro hmem
  rcases List.mem_append.mp hmem with hbefore | hafter
  · exact hfirst.unstopped hbefore
  · rcases hlater _ hafter with hloop | hchat
    · cases hloop
    · cases hchat

lemma attempted (h : Stayed messages story) : Incident.tally story .connectionsAttempted = 1 := by
  obtain ⟨first, later, rfl, hfirst, hlater⟩ := h.parts
  have hnone := @Incident.tally_of_messages later .connectionsAttempted hlater rfl (by decide)
  rw [Incident.tally_append, hfirst.counted.1, hnone]

lemma running (h : Stayed messages story)
    (hfine : ∀ incident ∈ story, incident.isSetback = false) :
    (Standing.afterAll ⟨.disconnected, false⟩ story).state = .running ∧
      Incident.tally story .authSucceeded = 1 ∧ Incident.tally story .messagesSent = messages := by
  obtain ⟨first, later, acts, rfl, hfirst, htale, hacts, hcount⟩ := h
  obtain ⟨hfine, hfine'⟩ := List.forall_mem_append.mp hfine
  obtain ⟨hrunning, hlogins⟩ := @Admission.running _ ⟨.disconnected, false⟩ hfirst hfine
  obtain ⟨hstate, hsent⟩ := htale.sent hrunning rfl hacts hfine'
  refine ⟨?_, ?_, ?_⟩
  · rwa [Standing.afterAll_append]
  · have hnone := @Incident.tally_of_messages later .authSucceeded (htale.of_chats rfl hacts) rfl
      (by decide)
    rw [Incident.tally_append, hlogins, hnone]
  · rw [Incident.tally_append, hfirst.counted.2.2.2, hsent, hcount hrunning, Nat.zero_add]

end Stayed

namespace Returned

variable {story : List Incident}

lemma attempted (h : Returned story) :
    Incident.tally story .connectionsAttempted = 2 ∧ Incident.tally story .messagesSent = 0 := by
  obtain ⟨first, second, rfl, hfirst, hsecond⟩ := h
  obtain ⟨hone, _, _, hnone⟩ := hfirst.counted
  obtain ⟨hone', _, _, hnone'⟩ := hsecond.counted
  simp only [Incident.tally_append, Incident.tally_cons, hone, hone', hnone, hnone']
  exact ⟨rfl, rfl⟩

lemma running (h : Returned story) (hfine : ∀ incident ∈ story, incident.isSetback = false)
    (standing : Standing) :
    (standing.afterAll story).state = .running ∧ Incident.tally story .authSucceeded = 2 := by
  obtain ⟨first, second, rfl, hfirst, hsecond⟩ := h
  obtain ⟨hfine, hfine'⟩ := List.forall_mem_append.mp hfine
  have hagain := @Admission.running _ ⟨.stopped, false⟩ hsecond
    (List.forall_mem_cons.mp hfine').2
  refine ⟨?_, ?_⟩
  · rw [Standing.afterAll_append]
    exact hagain.1
  · rw [Incident.tally_append, (@Admission.running _ standing hfirst hfine).2, Incident.tally_cons,
      hagain.2]
    rfl

end Returned

/-! ### Frames -/

/-- The frames that clients may write: an AUTH, a heartbeat, or a message of one of the first clients to
one of the others. -/
inductive Permitted (half count : Nat) : Bytes → Prop
  | auth {request : UInt64} {body : Bytes} : Permitted half count (Frame.encode .auth request body)
  | heartbeat {request : UInt64} : Permitted half count (Frame.encode .heartbeat request [])
  | chat {request : UInt64} {chat : Chat} {clock : Int64} :
      0 < chat.senderId.toInt → chat.senderId.toInt ≤ half →
      half < chat.targetId.toInt → chat.targetId.toInt ≤ count →
      Permitted half count (Frame.encode .singleChat request (chat.encode clock))

/-- Messages are sent by clients of the first half to clients of the second. -/
def Lawful (half count position : Nat) (act : Act) : Prop :=
  act.isChat → position < half ∧ ∃ target content, act = .single (Int64.ofNat target) content ∧
    half < target ∧ target ≤ count

namespace Client

variable {σ : Type} {half count position : Nat}

lemma toInt_toInt64 {number : UInt64} (h : number.toNat < 2 ^ 63) :
    number.toInt64.toInt = number.toNat := by
  rw [← Int64.toInt_toBitVec]
  simp [BitVec.toInt_eq_toNat_cond]
  omega

lemma written_permitted {client : Client} {net : Net σ} {now : Duration} {wait : Wait} {move : Move}
    (hid : client.id.toNat = position + 1) (hcount : count < 2 ^ 63) (hhalf : half ≤ count)
    (lawful : ∀ act, move = .begin act → Lawful half count position act) :
    ∀ entry ∈ client.written net now wait move, Permitted half count entry.2 := by
  intro entry hentry
  have hwrites := Option.mem_toList.mp (List.mem_of_mem_filter hentry)
  cases move with
  | «begin» act =>
    simp only [writes?] at hwrites
    split at hwrites
    · obtain ⟨conn, _, hmap⟩ := Option.bind_eq_some_iff.mp hwrites
      obtain ⟨bytes, hframe, rfl⟩ := Option.map_eq_some_iff.mp hmap
      cases act with
      | authenticate =>
        rw [frame?] at hframe
        split at hframe
        · cases hframe
          exact .auth
        · cases hframe
      | heartbeat =>
        cases hframe
        exact .heartbeat
      | single target content =>
        simp only [frame?, message?] at hframe
        split at hframe
        · cases hframe
          obtain ⟨hposition, number, text, heq, hlow, hhigh⟩ := lawful _ rfl rfl
          cases heq
          have hsender : client.id.toInt64.toInt = position + 1 := by
            rw [toInt_toInt64 (by omega), hid]
            rfl
          have htarget : (Int64.ofNat number).toInt = number :=
            Int64.toInt_ofNat_of_lt (Nat.lt_of_le_of_lt hhigh hcount)
          refine Permitted.chat ?_ ?_ ?_ ?_
          · simp only [Chat.single, hsender]
            omega
          · simp only [Chat.single, hsender]
            omega
          · simp only [Chat.single, htarget]
            omega
          · simp only [Chat.single, htarget]
            omega
        · cases hframe
      | group session content =>
        obtain ⟨_, _, _, heq, _⟩ := lawful _ rfl rfl
        cases heq
      | _ => simp [frame?, message?] at hframe
    · cases hwrites
  | beat session =>
    obtain ⟨loop, _, hdue⟩ := Option.bind_eq_some_iff.mp hwrites
    split at hdue
    · cases hdue
      exact .heartbeat
    · cases hdue
  | resume | receive => cases hwrites

end Client

namespace World

variable {σ : Type} {half count : Nat}

theorem written_permitted {world : World σ} (numbered : world.Numbered) (hcount : count < 2 ^ 63)
    (hhalf : half ≤ count) {moves : List Happening}
    (lawful : ∀ position act, .client position (.begin act) ∈ moves →
      Lawful half count position act) :
    ∀ entry ∈ world.trace written moves, Permitted half count entry.2 := by
  induction moves generalizing world with
  | nil => exact fun _ hentry => absurd hentry List.not_mem_nil
  | cons happening later ih =>
    refine List.forall_mem_append.mpr ⟨fun entry hentry => ?_, ?_⟩
    · rcases step_cases world happening with ⟨position, agent, move, rfl, ha⟩ | ⟨_, _, hnone⟩
      · rw [written, ofMoves_client ha] at hentry
        refine Client.written_permitted (numbered position agent ha) hcount hhalf ?_ entry hentry
        rintro act rfl
        exact lawful position act List.mem_cons_self
      · rw [written, hnone] at hentry
        cases hentry
    · exact ih (numbered.step happening) fun position act hact =>
        lawful position act (List.mem_cons_of_mem _ hact)

/-! ### Sums -/

lemma sum_halves (half count : Nat) (hhalf : half ≤ count) :
    ∑ position ∈ Finset.range count, (if position < half then 1 else 2) = count + (count - half) := by
  induction count, hhalf using Nat.le_induction with
  | base =>
    rw [Finset.sum_congr rfl fun position hp => if_pos (Finset.mem_range.mp hp)]
    simp
  | succ count hle ih =>
    rw [Finset.sum_range_succ, ih, if_neg (by omega)]
    omega

lemma sum_first (half count messages : Nat) (hhalf : half ≤ count) :
    ∑ position ∈ Finset.range count, (if position < half then messages else 0) = half * messages := by
  induction count, hhalf using Nat.le_induction with
  | base =>
    rw [Finset.sum_congr rfl fun position hp => if_pos (Finset.mem_range.mp hp)]
    simp
  | succ count hle ih => rw [Finset.sum_range_succ, ih, if_neg (by omega), Nat.add_zero]

end World

end ChatLoad
