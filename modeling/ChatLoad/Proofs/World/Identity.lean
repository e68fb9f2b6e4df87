import ChatLoad.Proofs.Client.Sending
import ChatLoad.Proofs.Client.Tale
import ChatLoad.Proofs.World.Drawing

/-! Whose request it is. The upper half of an id is the client that has drawn it, so that clients cannot take
each other's requests for their own; and no id is zero, which stands for a message that was not sent. -/

namespace ChatLoad

def Incident.sentId? : Incident → Option UInt64
  | chatSent request => some request
  | _ => none

namespace Client

variable {σ : Type}

/-- What a call that is to send a message returns: the id it was sent under, or zero if nothing was sent. -/
def chatAnswer (client : Client) (net : Net σ) (now : Duration) (act : Act) : UInt64 :=
  ((client.noted net now .nothing (.begin act)).findSome? Incident.sentId?).getD 0

variable {now : Duration} {client client' : Client} {net net' : Net σ} {act : Act} {wait' : Wait}
  {incidents : List Incident}

lemma Moved.sentId (h : Moved now client net .nothing (.begin act) client' net' wait' incidents)
    (hchat : act.isChat) :
    client.written net now .nothing (.begin act) = [] ∧
        incidents.findSome? Incident.sentId? = none ∨
      client.written net now .nothing (.begin act) ≠ [] ∧
        client.chatIds .nothing (.begin act) = [client.drawId.1] ∧
        incidents.findSome? Incident.sentId? = some client.drawId.1 := by
  cases h with
  | still hnone _ _ hskip =>
    refine .inl ⟨written_of_none hnone, List.findSome?_eq_none_iff.mpr fun incident hi => ?_⟩
    have hmem := hskip hi
    simp only [List.mem_cons, List.not_mem_nil, or_false] at hmem
    rcases hmem with rfl | rfl | rfl | rfl <;> rfl
  | @chat _ message conn bytes result _ hmessage hauth hwrites hwrite =>
    cases result with
    | ok _ =>
      refine .inr ⟨?_, ?_, rfl⟩
      · rw [written_of_write hwrites hwrite]
        exact List.cons_ne_nil _ _
      · simp [chatIds, hmessage, hauth]
    | error cause =>
      have hfull := Net.not_writable_of_write_error hwrite
      exact .inl ⟨by simp [written, hwrites, hfull], rfl⟩
  | _ => cases hchat

lemma chatAnswer_eq_zero_iff (client : Client) (net : Net σ) (now : Duration) (hchat : act.isChat) :
    client.chatAnswer net now act = 0 ↔ client.written net now .nothing (.begin act) = [] := by
  have hmoved := client.moved net now .nothing (.begin act)
  rcases hmoved.sentId hchat with ⟨hsilent, hnone⟩ | ⟨hwritten, -, hsome⟩
  · rw [chatAnswer, noted, hnone]
    exact iff_of_true rfl hsilent
  · rw [chatAnswer, noted, hsome]
    exact iff_of_false (requestId_ne_zero _ _) hwritten

lemma chatAnswer_mem_draws (client : Client) (net : Net σ) (now : Duration) (hchat : act.isChat)
    (hsent : client.chatAnswer net now act ≠ 0) :
    client.chatAnswer net now act ∈ client.draws net now .nothing (.begin act) := by
  have hmoved := client.moved net now .nothing (.begin act)
  rcases hmoved.sentId hchat with ⟨-, hnone⟩ | ⟨-, hids, hsome⟩
  · rw [chatAnswer, noted, hnone] at hsent
    exact absurd rfl hsent
  · rw [chatAnswer, noted, hsome, draws, hids]
    exact List.mem_cons_self

end Client

namespace World

variable {σ : Type} {world : World σ}

/-- However many ids are drawn, none is zero, and the ids of a client whose own id has 32 bits have that in
their upper halves; so two such clients never draw the same id. A call that is to send a message returns zero
just if nothing is written, and else the id that it has drawn. -/
theorem ids_tell_clients_apart (fresh : world.Fresh) (happenings : List Happening) :
    (∀ position agent, (world.run happenings).agents[position]? = some agent →
      0 ∉ world.drawn position happenings ∧
      (agent.client.id.toNat < 2 ^ 32 → ∀ request ∈ world.drawn position happenings,
        request.toNat / 2 ^ 32 = agent.client.id.toNat)) ∧
    (∀ position position' agent agent', (world.run happenings).agents[position]? = some agent →
      (world.run happenings).agents[position']? = some agent' →
      agent.client.id.toNat < 2 ^ 32 → agent'.client.id.toNat < 2 ^ 32 →
      agent.client.id ≠ agent'.client.id →
      (world.drawn position happenings).Disjoint (world.drawn position' happenings)) ∧
    ∀ (client : Client) (net : Net σ) now (act : Act), act.isChat →
      (client.chatAnswer net now act = 0 ↔ client.written net now .nothing (.begin act) = []) ∧
      (client.chatAnswer net now act ≠ 0 →
        client.chatAnswer net now act ∈ client.draws net now .nothing (.begin act)) := by
  have drawing {position : Nat} {agent : Agent}
      (h : (world.run happenings).agents[position]? = some agent) :=
    (fresh.run_drawing happenings agent h).drawn
  refine ⟨fun position agent h => ⟨?_, fun hid request hrequest => ?_⟩,
    fun position position' agent agent' h h' hid hid' hne => ?_, fun client net now act hchat => ?_⟩
  · rw [drawing h]
    exact Client.zero_notMem_issued _ _
  · rw [drawing h] at hrequest
    exact Client.div_of_mem_issued hid hrequest
  · rw [drawing h, drawing h']
    exact Client.issued_disjoint hid hid' hne _ _
  · exact ⟨client.chatAnswer_eq_zero_iff net now hchat, client.chatAnswer_mem_draws net now hchat⟩

/-- The largest client id that fits, a small one, and one that an id has no room for. -/
def neighbours : World Unit where
  net := { peer := .quiet, memory := () }
  agents := [{ client := { id := 4294967295 } }, { client := { id := 7 } },
    { client := { id := 18446744069414584320 } }]

/-- All log in and send a message each; the second has lost its connection by then. -/
def chorus : List Happening :=
  [.client 0 (.begin (.connect 5)), .client 1 (.begin (.connect 5)), .client 2 (.begin (.connect 5)),
    .peer (.deliver 0 (Frame.encode .ack 1 [])), .peer (.deliver 1 (Frame.encode .ack 1 [])),
    .peer (.deliver 2 (Frame.encode .ack 1 [])), .client 0 (.begin .authenticate),
    .client 1 (.begin .authenticate), .client 2 (.begin .authenticate), .peer (.reset 1),
    .client 0 (.begin (.single 7 "one")), .client 1 (.begin (.single 7 "two")),
    .client 2 (.begin (.group 3 "three"))]

lemma neighbours_fresh : neighbours.Fresh :=
  fresh_of_new [4294967295, 7, 18446744069414584320] rfl rfl rfl rfl

theorem neighbours_told_apart :
    neighbours.Fresh ∧ neighbours.drawn 0 chorus = [18446744069414584321, 18446744069414584322] ∧
    neighbours.drawn 2 chorus = [1, 2] ∧ 0 ∉ neighbours.drawn 2 chorus ∧
    ∃ first second third : Agent, (neighbours.run chorus).agents[0]? = some first ∧
      (neighbours.run chorus).agents[1]? = some second ∧
      (neighbours.run chorus).agents[2]? = some third ∧
      first.client.id = 4294967295 ∧ second.client.id = 7 ∧
      (∀ request ∈ neighbours.drawn 0 chorus, request.toNat / 2 ^ 32 = 4294967295) ∧
      (neighbours.drawn 0 chorus).Disjoint (neighbours.drawn 1 chorus) ∧
      first.client.chatAnswer (neighbours.run chorus).net 0 (.single 7 "four") ≠ 0 ∧
      first.client.chatAnswer (neighbours.run chorus).net 0 (.single 7 "four") ∈
        first.client.draws (neighbours.run chorus).net 0 .nothing (.begin (.single 7 "four")) ∧
      second.client.written (neighbours.run chorus).net 0 .nothing (.begin (.single 7 "five")) = [] ∧
      second.client.chatAnswer (neighbours.run chorus).net 0 (.single 7 "five") = 0 := by
  have hzero : (neighbours.run chorus).agents[0]?.any (fun agent => agent.client.id = 4294967295 ∧
      agent.client.chatAnswer (neighbours.run chorus).net 0 (.single 7 "four") ≠ 0) = true := by
    decide
  have hone : (neighbours.run chorus).agents[1]?.any (fun agent => agent.client.id = 7 ∧
      agent.client.written (neighbours.run chorus).net 0 .nothing (.begin (.single 7 "five")) =
        []) = true := by
    decide
  have htwo : (neighbours.run chorus).agents[2]?.isSome := by decide
  obtain ⟨first, hfirst, hknown⟩ := (Option.any_eq_true _ _).mp hzero
  obtain ⟨hid, hsent⟩ := of_decide_eq_true hknown
  obtain ⟨second, hsecond, hknown'⟩ := (Option.any_eq_true _ _).mp hone
  obtain ⟨hid', hsilent⟩ := of_decide_eq_true hknown'
  obtain ⟨third, hthird⟩ := Option.isSome_iff_exists.mp htwo
  have hlt : first.client.id.toNat < 2 ^ 32 := by rw [hid]; decide
  have hlt' : second.client.id.toNat < 2 ^ 32 := by rw [hid']; decide
  have hne : first.client.id ≠ second.client.id := by rw [hid, hid']; decide
  obtain ⟨hclients, hpairs, hanswers⟩ := ids_tell_clients_apart neighbours_fresh chorus
  have hupper := (hclients 0 first hfirst).2 hlt
  rw [hid] at hupper
  exact ⟨neighbours_fresh, by decide, by decide, (hclients 2 third hthird).1, first, second, third,
    hfirst, hsecond, hthird, hid, hid', hupper, hpairs 0 1 first second hfirst hsecond hlt hlt' hne,
    hsent, (hanswers _ _ 0 (.single 7 "four") rfl).2 hsent, hsilent,
    (hanswers _ _ 0 (.single 7 "five") rfl).1.mpr hsilent⟩

end World

end ChatLoad
