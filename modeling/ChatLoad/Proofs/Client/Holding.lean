import ChatLoad.Proofs.Client.Mooring
import ChatLoad.Proofs.Net.Arrival

/-! A connection stays with the client that holds it: nobody but this client closes it, and not before
it lets go of it. -/

namespace ChatLoad

variable {σ : Type}

namespace Net

variable {net net' : Net σ} {now : Duration} {conn other : ConnId}

/-- The connection was opened, and its client has not closed it. -/
def Keeps (net : Net σ) (conn : ConnId) : Prop :=
  ∃ link, net.link? conn = some link ∧ link.closed = false

namespace Keeps

lemma of_links (h : net.Keeps conn) (hlinks : net'.links = net.links) : net'.Keeps conn := by
  obtain ⟨link, hl, hopen⟩ := h
  exact ⟨link, by rwa [link?, hlinks], hopen⟩

lemma lt_length (h : net.Keeps conn) : conn < net.links.length := by
  obtain ⟨link, hl, _⟩ := h
  exact (List.getElem?_eq_some_iff.mp hl).1

lemma change (h : net.Keeps conn) {f : Link → Link}
    (hf : conn = other → ∀ link, (f link).closed = link.closed) : (net.change other f).Keeps conn := by
  obtain ⟨link, hl, hopen⟩ := h
  by_cases heq : other = conn
  · exact ⟨f link, by rw [link?_change, if_pos heq, hl]; rfl, (hf heq.symm link).trans hopen⟩
  · exact ⟨link, by rw [link?_change, if_neg heq, hl], hopen⟩

lemma apply (h : net.Keeps conn) (action : Action) : (net.apply action).Keeps conn := by
  have hpush (delivery : Delivery) (link : Link) : (link.push delivery).closed = link.closed := by
    rw [Link.push]
    split <;> rfl
  have hreset (link : Link) : link.reset.closed = link.closed := by
    rw [Link.reset]
    split <;> rfl
  cases action with
  | deliver | finish => exact h.change fun _ => hpush _
  | reset => exact h.change fun _ => hreset
  | stopListening => exact h.of_links rfl

lemma react (h : net.Keeps conn) (now : Duration) (reactions : List Reaction) :
    (net.react now reactions).Keeps conn := by
  rw [Net.react]
  induction reactions generalizing net with
  | nil => exact h
  | cons reaction reactions ih =>
    rw [List.foldl_cons]
    apply ih
    split
    · exact h.apply _
    · exact h.of_links rfl

lemma runAgenda (h : net.Keeps conn) (now : Duration) : (net.runAgenda now).Keeps conn := by
  rw [Net.runAgenda]
  have hput : ({ net with agenda := net.agenda.filter (now < ·.1) } : Net σ).Keeps conn :=
    h.of_links rfl
  revert hput
  generalize ({ net with agenda := net.agenda.filter (now < ·.1) } : Net σ) = start
  induction net.agenda.filter (·.1 ≤ now) generalizing start with
  | nil => exact fun hput => hput
  | cons entry due ih => exact fun hput => ih _ (hput.apply entry.2)

lemma attempt (h : net.Keeps conn) : net.attempt.2.Keeps conn :=
  h.of_links net.links_attempt

lemma leave (h : net.Keeps conn) (other : ConnId) (incoming : List Delivery) :
    (net.leave other incoming).Keeps conn :=
  h.change fun _ _ => rfl

lemma openLink (h : net.Keeps conn) (now : Duration) : (net.openLink now).2.Keeps conn := by
  have haccepting : net.accepting.Keeps conn := by
    obtain ⟨link, hl, hopen⟩ := h
    have hlt := (List.getElem?_eq_some_iff.mp hl).1
    exact ⟨link, by rw [link?_accepting, if_neg (Nat.ne_of_lt hlt), hl], hopen⟩
  exact haccepting.react _ _

lemma opened (net : Net σ) (now : Duration) : (net.openLink now).2.Keeps (net.openLink now).1 := by
  have haccepting : net.accepting.Keeps net.links.length :=
    ⟨{}, by rw [link?_accepting, if_pos rfl], rfl⟩
  exact haccepting.react _ _

lemma close (h : net.Keeps conn) (hne : conn ≠ other) : (net.close other).Keeps conn := by
  rw [Net.close]
  cases net.link? other with
  | none => exact h
  | some link =>
    have hchange : (net.change other ({ · with closed := true })).Keeps conn :=
      h.change fun heq => absurd heq hne
    simp only
    split
    · exact hchange
    · exact hchange.of_links rfl

lemma drop (h : net.Keeps conn) {before after : Client}
    (hheld : conn ∈ before.held → conn ∈ after.held) : (net.drop before after).Keeps conn := by
  rw [Net.drop]
  have hnot : conn ∉ before.held.filter fun conn => !after.held.contains conn := by
    intro hmem
    obtain ⟨hbefore, hafter⟩ := List.mem_filter.mp hmem
    simp [hheld hbefore] at hafter
  revert hnot
  induction before.held.filter fun conn => !after.held.contains conn generalizing net with
  | nil => exact fun _ => h
  | cons other conns ih =>
    intro hnot
    obtain ⟨hne, hlater⟩ := List.ne_and_not_mem_of_not_mem_cons hnot
    exact ih (h.close hne) hlater

lemma write (h : net.Keeps conn) {bytes : Bytes} {result : Except IoError Unit}
    (hwrite : net.write now other bytes = (result, net')) : net'.Keeps conn := by
  rw [Net.write] at hwrite
  cases hl : net.link? other with
  | none =>
    simp only [hl, Prod.mk.injEq] at hwrite
    exact hwrite.2 ▸ h
  | some link =>
    simp only [hl] at hwrite
    split at hwrite
    · exact (Prod.mk.injEq _ _ _ _ ▸ hwrite).2 ▸ h
    · have hheard : ({ net with memory := (net.peer.hear other bytes net.memory).1 } : Net σ).Keeps
          conn := h.of_links rfl
      exact (Prod.mk.injEq _ _ _ _ ▸ hwrite).2 ▸ hheard.react _ _

lemma touch (h : net.Keeps conn) (now : Duration) : (net.touch now).Keeps conn :=
  (h.openLink now).close (Nat.ne_of_lt h.lt_length)

end Keeps

lemma write_ok (h : net.Keeps conn)
    (hunbroken : ∀ link, net.link? conn = some link → link.broken = false) (now : Duration)
    (bytes : Bytes) : ∃ net', net.write now conn bytes = (.ok (), net') := by
  obtain ⟨link, hl, hopen⟩ := h
  simp [Net.write, hl, hunbroken link hl, hopen]

end Net

namespace Client

variable {now : Duration} {client client' : Client} {net net' : Net σ} {wait wait' : Wait}
  {move : Move} {incidents : List Incident} {conn : ConnId}

lemma mem_held : conn ∈ client.held ↔
    client.writer = some conn ∨ ∃ loop ∈ client.heartbeats, loop.conn = conn := by
  simp [held, eq_comm]

lemma Looked.held {deadline : Duration}
    (h : Looked now deadline client net client' net' wait' incidents) : client'.held = client.held := by
  cases h <;> rfl

lemma Looked.kept {deadline : Duration}
    (h : Looked now deadline client net client' net' wait' incidents) (hk : net.Keeps conn) :
    net'.Keeps conn := by
  cases h with
  | noReader => exact hk
  | answered | failed | waits => exact hk.leave _ _

lemma held_endCurrentSession (h : conn ∈ client.endCurrentSession.held) : conn ∈ client.held := by
  rw [endCurrentSession] at h
  split at h
  · rcases mem_held.mp h with hwriter | ⟨loop, hloop, rfl⟩
    · exact mem_held.mpr (.inl hwriter)
    · exact mem_held.mpr (.inr ⟨loop, List.mem_of_mem_filter hloop, rfl⟩)
  · exact h

lemma held_startedOn {interval : Duration} {reader : Reader} (hwriter : client.writer = some conn)
    {other : ConnId} (h : other ∈ (client.startedOn now interval conn reader).held) :
    other ∈ client.held := by
  rcases mem_held.mp h with hmine | ⟨loop, hloop, rfl⟩
  · exact held_endCurrentSession (mem_held.mpr (.inl hmine))
  · rcases List.mem_append.mp hloop with hold | hnew
    · exact held_endCurrentSession (mem_held.mpr (.inr ⟨loop, hold, rfl⟩))
    · rw [List.mem_singleton.mp hnew]
      exact mem_held.mpr (.inl hwriter)

lemma held_putHeartbeat {loop other : HeartbeatLoop} (h : conn ∈ (client.putHeartbeat other).held)
    (hloop : loop ∈ client.heartbeats) (hsame : other.conn = loop.conn) : conn ∈ client.held := by
  rcases mem_held.mp h with hmine | ⟨kept, hkept, rfl⟩
  · exact mem_held.mpr (.inl hmine)
  · rcases mem_putHeartbeat hkept with rfl | hold
    · exact mem_held.mpr (.inr ⟨loop, hloop, hsame.symm⟩)
    · exact mem_held.mpr (.inr ⟨kept, hold, rfl⟩)

lemma held_stopped (h : conn ∈ client.stopped.held) : conn ∈ client.held := by
  rcases mem_held.mp h with hmine | ⟨loop, hloop, rfl⟩
  · cases hmine
  · exact held_endCurrentSession (mem_held.mpr (.inr ⟨loop, hloop, rfl⟩))

lemma held_endHeartbeat {session : Nat} (h : conn ∈ (client.endHeartbeat session).held) :
    conn ∈ client.held := by
  rcases mem_held.mp h with hmine | ⟨loop, hloop, rfl⟩
  · exact mem_held.mpr (.inl hmine)
  · exact mem_held.mpr (.inr ⟨loop, List.mem_of_mem_filter hloop, rfl⟩)

lemma held_handleAll (client : Client) (now : Duration) (items : List Item) :
    (client.handleAll now items).1.held = client.held := by
  rw [handleAll_client]
  rfl

/-- What a client holds after a move it has held before, or it has just been opened. -/
theorem Moved.held (h : Moved now client net wait move client' net' wait' incidents)
    (hconn : conn ∈ client'.held) : conn ∈ client.held ∨ ¬ net.Keeps conn ∧ net'.Keeps conn := by
  cases h with
  | still | refused | late | connecting | expired | unsendable | unsent | hasty | chat
  | heartbeat => exact .inl hconn
  | @connected _ new between _ hopen =>
    rcases mem_held.mp hconn with hmine | hbeats
    · obtain rfl : new = conn := Option.some.inj hmine
      have hnew : new = net.links.length := by
        rw [← net.links_attempt, ← Net.openLink_fst _ now, hopen]
      have hkept := Net.Keeps.opened net.attempt.2 now
      rw [hopen] at hkept
      exact .inr ⟨fun hold => Nat.ne_of_lt hold.lt_length hnew,
        hkept.drop fun _ => mem_held.mpr (.inl rfl)⟩
    · exact .inl (mem_held.mpr (.inr hbeats))
  | sent _ _ _ _ hlook =>
    rw [hlook.held] at hconn
    exact .inl hconn
  | resumed hlook =>
    rw [hlook.held] at hconn
    exact .inl hconn
  | started _ hwriter => exact .inl (held_startedOn hwriter hconn)
  | stopped => exact .inl (held_stopped hconn)
  | @beat _ _ loop _ _ _ _ hloop =>
    have hmem : loop ∈ client.heartbeats := List.mem_of_find?_eq_some hloop
    exact .inl (held_putHeartbeat hconn hmem rfl)
  | lastBeat => exact .inl (held_endHeartbeat hconn)
  | received => exact .inl (held_handleAll client now _ ▸ hconn)
  | hungUp | broke => exact .inl (held_handleAll client now _ ▸ hconn)

/-- A move closes nothing but what its client lets go of. -/
theorem Moved.kept (h : Moved now client net wait move client' net' wait' incidents)
    (hk : net.Keeps conn) (hheld : conn ∈ client.held → conn ∈ client'.held) : net'.Keeps conn := by
  cases h with
  | still | expired | unsendable => exact hk
  | refused | connecting => exact hk.attempt
  | late => exact hk.attempt.touch now
  | connected _ hopen =>
    have hopened := hk.attempt.openLink now
    rw [hopen] at hopened
    exact hopened.drop hheld
  | unsent _ _ hwrite | hasty _ _ hwrite => exact hk.write hwrite
  | sent _ _ hwrite _ hlook => exact hlook.kept (hk.write hwrite)
  | resumed hlook => exact hlook.kept hk
  | chat _ _ _ hwrite => exact hk.write hwrite
  | heartbeat _ hwrite => exact hk.write hwrite
  | started | stopped => exact hk.drop hheld
  | beat _ _ _ hwrite => exact hk.write hwrite
  | lastBeat _ _ _ hwrite => exact (hk.write hwrite).drop hheld
  | received | hungUp | broke => exact hk.leave _ _

end Client

end ChatLoad
