import ChatLoad.Proofs.Client.Tally

/-! Peers that keep a record of what is written to them. Only a write that succeeds adds to it. -/

namespace ChatLoad

variable {σ : Type}

/-- The same peer, with a record of what it has heard on which connection. -/
def Peer.recorded (peer : Peer σ) : Peer (σ × List (ConnId × Bytes)) where
  accept conn memory := (((peer.accept conn memory.1).1, memory.2), (peer.accept conn memory.1).2)
  hear conn bytes memory :=
    (((peer.hear conn bytes memory.1).1, memory.2 ++ [(conn, bytes)]),
      (peer.hear conn bytes memory.1).2)
  lose conn memory := (peer.lose conn memory.1, memory.2)

namespace Net

structure Recorded (peer : Peer σ) (record : List (ConnId × Bytes))
    (net : Net (σ × List (ConnId × Bytes))) : Prop where
  peer : net.peer = peer.recorded
  record : net.memory.2 = record

namespace Recorded

variable {peer : Peer σ} {record : List (ConnId × Bytes)} {net net' : Net (σ × List (ConnId × Bytes))}
  {now : Duration} {conn : ConnId} {bytes : Bytes}

lemma keep (recorded : net.Recorded peer record) (hpeer : net'.peer = net.peer)
    (hmemory : net'.memory.2 = net.memory.2) : net'.Recorded peer record :=
  ⟨hpeer.trans recorded.peer, hmemory.trans recorded.record⟩

lemma apply (recorded : net.Recorded peer record) (action : Action) :
    (net.apply action).Recorded peer record := by
  cases action <;> exact recorded.keep rfl rfl

lemma react (recorded : net.Recorded peer record) (reactions : List Reaction) :
    (net.react now reactions).Recorded peer record := by
  rw [Net.react]
  induction reactions generalizing net with
  | nil => exact recorded
  | cons reaction reactions ih =>
    rw [List.foldl_cons]
    split
    · exact ih (recorded.apply _)
    · exact ih (recorded.keep rfl rfl)

lemma runAgenda (recorded : net.Recorded peer record) : (net.runAgenda now).Recorded peer record := by
  have hfold : ∀ (due : List (Duration × Action)) {net : Net (σ × List (ConnId × Bytes))},
      net.Recorded peer record →
        (due.foldl (fun net entry => net.apply entry.2) net).Recorded peer record := by
    intro due
    induction due with
    | nil => exact fun recorded => recorded
    | cons entry due ih => exact fun recorded => ih (recorded.apply entry.2)
  exact hfold _ (recorded.keep rfl rfl)

lemma leave (recorded : net.Recorded peer record) (incoming : List Delivery) :
    (net.leave conn incoming).Recorded peer record :=
  recorded.keep rfl rfl

lemma attempt (recorded : net.Recorded peer record) : net.attempt.2.Recorded peer record := by
  rw [Net.attempt]
  split <;> exact recorded.keep rfl rfl

lemma openLink (recorded : net.Recorded peer record) :
    (net.openLink now).2.Recorded peer record := by
  have hmemory : (net.peer.accept net.links.length net.memory).1.2 = record := by
    rw [recorded.peer]
    exact recorded.record
  let opened := { net with
    memory := (net.peer.accept net.links.length net.memory).1
    links := net.links ++ [({} : Link)] }
  have hopened : opened.Recorded peer record := ⟨recorded.peer, hmemory⟩
  exact hopened.react _

lemma close (recorded : net.Recorded peer record) (conn : ConnId) :
    (net.close conn).Recorded peer record := by
  rw [Net.close]
  split
  · exact recorded
  · split
    · exact recorded.keep rfl rfl
    · refine ⟨recorded.peer, ?_⟩
      simp only [Net.change, recorded.peer, Peer.recorded]
      exact recorded.record

lemma drop (recorded : net.Recorded peer record) (before after : Client) :
    (net.drop before after).Recorded peer record := by
  rw [Net.drop]
  induction before.held.filter fun conn => !after.held.contains conn generalizing net with
  | nil => exact recorded
  | cons conn conns ih => exact ih (recorded.close conn)

lemma write (recorded : net.Recorded peer record) {result : Except IoError Unit}
    (hwrite : net.write now conn bytes = (result, net')) :
    net'.Recorded peer (record ++ if net.writable conn then [(conn, bytes)] else []) := by
  cases hlink : net.link? conn with
  | none =>
    simp only [Net.write, hlink] at hwrite
    cases hwrite
    simpa [writable, hlink] using recorded
  | some link =>
    simp only [Net.write, hlink] at hwrite
    by_cases hgone : (link.broken || link.closed) = true
    · rw [if_pos hgone] at hwrite
      cases hwrite
      simpa only [writable, hlink, hgone, Bool.not_true, Bool.false_eq_true, if_false,
        List.append_nil] using recorded
    · rw [if_neg hgone] at hwrite
      have hmemory : (net.peer.hear conn bytes net.memory).1.2 = record ++ [(conn, bytes)] := by
        rw [recorded.peer, ← recorded.record]
        rfl
      have htakes : net.writable conn = true := by
        simpa only [writable, hlink, Bool.not_eq_true'] using Bool.eq_false_iff.mpr hgone
      let heard := { net with memory := (net.peer.hear conn bytes net.memory).1 }
      have hheard : heard.Recorded peer (record ++ [(conn, bytes)]) := ⟨recorded.peer, hmemory⟩
      cases hwrite
      rw [htakes]
      exact hheard.react _

end Recorded

end Net

namespace Client

variable {peer : Peer σ} {record : List (ConnId × Bytes)} {now : Duration} {client client' : Client}
  {net net' : Net (σ × List (ConnId × Bytes))} {wait wait' : Wait} {move : Move}
  {incidents : List Incident}

lemma writes?_of_frame? {net : Net σ} {act : Act} (h : client.frame? net now act = none) :
    client.writes? net now wait (.begin act) = none := by
  simp [writes?, h]

/-- What a move tries to write to a connection that takes it. -/
def written (client : Client) (net : Net σ) (now : Duration) (wait : Wait) (move : Move) :
    List (ConnId × Bytes) :=
  (client.writes? net now wait move).toList.filter fun entry => net.writable entry.1

lemma Looked.recorded {deadline : Duration}
    (h : Looked now deadline client net client' net' wait' incidents)
    (recorded : net.Recorded peer record) : net'.Recorded peer record := by
  cases h with
  | noReader => exact recorded
  | answered | failed | waits => exact recorded.leave _

/-- The record of the peer grows by what a move writes. -/
theorem Moved.recorded (h : Moved now client net wait move client' net' wait' incidents)
    (recorded : net.Recorded peer record) :
    net'.Recorded peer (record ++ client.written net now wait move) := by
  have hsilent (hnone : client.writes? net now wait move = none)
      (hafter : net'.Recorded peer record) :
      net'.Recorded peer (record ++ client.written net now wait move) := by
    simpa [written, hnone] using hafter
  have hloud {conn : ConnId} {bytes : Bytes} {result : Except IoError Unit}
      {between : Net (σ × List (ConnId × Bytes))}
      (hwrites : client.writes? net now wait move = some (conn, bytes))
      (hwrite : net.write now conn bytes = (result, between)) :
      between.Recorded peer (record ++ client.written net now wait move) := by
    have hafter := recorded.write hwrite
    simpa [written, hwrites, List.filter_cons] using hafter
  cases h with
  | still hnone => exact hsilent hnone recorded
  | refused | connecting => exact hsilent (writes?_of_frame? (by simp [frame?, message?])) recorded.attempt
  | late => exact hsilent (writes?_of_frame? (by simp [frame?, message?])) (recorded.attempt.openLink.close _)
  | connected _ hopen =>
    have hopened := @Net.Recorded.openLink _ _ _ _ now recorded.attempt
    rw [hopen] at hopened
    exact hsilent (writes?_of_frame? (by simp [frame?, message?])) (hopened.drop _ _)
  | expired => exact hsilent rfl recorded
  | unsendable _ hwriter => exact hsilent (by simp [writes?, hwriter]) recorded
  | unsent _ hwrites hwrite | hasty _ hwrites hwrite => exact hloud hwrites hwrite
  | sent _ hwrites hwrite _ hlook => exact hlook.recorded (hloud hwrites hwrite)
  | resumed hlook => exact hsilent rfl (hlook.recorded recorded)
  | chat _ _ hwrites hwrite | heartbeat hwrites hwrite => exact hloud hwrites hwrite
  | beat _ _ hwrites hwrite => exact hloud hwrites hwrite
  | lastBeat _ _ hwrites hwrite => exact (hloud hwrites hwrite).drop _ _
  | started | stopped => exact hsilent (writes?_of_frame? (by simp [frame?, message?])) (recorded.drop _ _)
  | received | hungUp | broke => exact hsilent rfl (recorded.leave _)

end Client

end ChatLoad
