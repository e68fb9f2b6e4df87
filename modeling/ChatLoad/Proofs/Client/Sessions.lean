import ChatLoad.Proofs.Client.Settled

/-! Sessions: only the loops of the latest start are alive, so that whatever ends the current session
leaves no loop behind. -/

namespace ChatLoad.Client

variable {σ : Type}

/-- Every loop belongs to the session that stopping or starting anew will end. -/
structure Led (client : Client) : Prop where
  heartbeats : ∀ loop ∈ client.heartbeats, client.session = some loop.session
  receivers : ∀ loop ∈ client.receivers, client.session = some loop.session

/-- Stopped for good, with nothing left that could act or be acted on. -/
structure AtRest (client : Client) : Prop where
  state : client.state = .stopped
  writer : client.writer = none
  reader : client.reader = none
  session : client.session = none
  heartbeats : client.heartbeats = []
  receivers : client.receivers = []

section

variable {now : Duration} {client client' : Client} {net net' : Net σ} {wait wait' : Wait}
  {move : Move} {incidents : List Incident}

/-! ### The end of a session -/

lemma Led.endCurrentSession (led : client.Led) :
    client.endCurrentSession.heartbeats = [] ∧ client.endCurrentSession.receivers = [] := by
  rw [Client.endCurrentSession]
  cases hs : client.session with
  | none =>
    refine ⟨List.eq_nil_iff_forall_not_mem.mpr fun loop hl => ?_,
      List.eq_nil_iff_forall_not_mem.mpr fun loop hl => ?_⟩
    · simpa [hs] using led.heartbeats loop hl
    · simpa [hs] using led.receivers loop hl
  | some session =>
    refine ⟨List.filter_eq_nil_iff.mpr fun loop hl => ?_,
      List.filter_eq_nil_iff.mpr fun loop hl => ?_⟩
    · have heq := led.heartbeats loop hl
      simp_all
    · have heq := led.receivers loop hl
      simp_all

lemma Led.stopped (led : client.Led) : client.stopped.AtRest := by
  obtain ⟨hbeats, hreceivers⟩ := led.endCurrentSession
  refine ⟨rfl, rfl, rfl, ?_, hbeats, hreceivers⟩
  simp only [Client.stopped, Client.endCurrentSession]
  cases hs : client.session with
  | none => exact hs
  | some session => rfl

lemma AtRest.led (rest : client.AtRest) : client.Led := by
  constructor <;> simp [rest.heartbeats, rest.receivers]

lemma AtRest.stopped (rest : client.AtRest) : client.stopped = client := by
  obtain ⟨hstate, hwriter, hreader, hsession, _, _⟩ := rest
  cases client
  simp_all [Client.stopped, Client.endCurrentSession]

/-! ### What moves do to sessions -/

lemma Led.sub (led : client.Led) (hsession : client'.session = client.session)
    (hbeating : client'.beating ⊆ client.beating) (hlistening : client'.listening ⊆ client.listening) :
    client'.Led := by
  constructor
  · intro loop hl
    obtain ⟨old, hold, heq⟩ := List.mem_map.mp (hbeating (List.mem_map_of_mem hl))
    rw [hsession, led.heartbeats old hold, heq]
  · intro loop hl
    obtain ⟨old, hold, heq⟩ := List.mem_map.mp (hlistening (List.mem_map_of_mem hl))
    rw [hsession, led.receivers old hold, heq]

lemma listening_putReceiver (client : Client) (loop : ReceiveLoop) :
    (client.putReceiver loop).listening = client.listening := by
  simp only [listening, putReceiver, List.map_map]
  apply List.map_congr_left
  intro other _
  simp only [Function.comp_apply]
  split
  · next heq => exact heq.symm
  · rfl

/-- No loop was added, the sessions are still the same, and nothing was set running. -/
structure Trims (client client' : Client) : Prop where
  running : client'.state = .running → client.state = .running
  session : client'.session = client.session
  sessions : client'.sessions = client.sessions
  beating : client'.beating.Sublist client.beating
  listening : client'.listening.Sublist client.listening

lemma Trims.keep (hstate : client'.state = .running → client.state = .running)
    (hsession : client'.session = client.session) (hsessions : client'.sessions = client.sessions)
    (hbeats : client'.heartbeats = client.heartbeats)
    (hreceivers : client'.receivers = client.receivers) : client.Trims client' :=
  ⟨hstate, hsession, hsessions, by rw [Client.beating, Client.beating, hbeats],
    by rw [Client.listening, Client.listening, hreceivers]⟩

lemma Looked.receivers {deadline : Duration}
    (h : Looked now deadline client net client' net' wait' incidents) :
    client'.receivers = client.receivers := by
  cases h <;> rfl

lemma Looked.trims {deadline : Duration}
    (h : Looked now deadline client net client' net' wait' incidents) : client.Trims client' := by
  cases h with
  | answered => exact .keep (by simp) rfl rfl rfl rfl
  | noReader | failed | waits => exact .keep (fun h => h) rfl rfl rfl rfl

structure Begins (client client' : Client) : Prop where
  state : client'.state = .running
  session : client'.session = some client.sessions
  sessions : client'.sessions = client.sessions + 1
  beating : client'.beating = [client.sessions]
  listening : client'.listening = [client.sessions]

lemma Led.begins (led : client.Led) (now interval : Duration) (conn : ConnId) (reader : Reader) :
    client.Begins (client.startedOn now interval conn reader) := by
  obtain ⟨hbeats, hreceivers⟩ := led.endCurrentSession
  constructor <;>
    simp [Client.startedOn, Client.beating, Client.listening, hbeats, hreceivers,
      sessions_endCurrentSession]

theorem Moved.loops (h : Moved now client net wait move client' net' wait' incidents)
    (led : client.Led) :
    client.Trims client' ∨ client.Begins client' ∨
      client'.AtRest ∧ client'.sessions = client.sessions := by
  cases h with
  | still | refused | late | connecting | expired | unsendable | unsent | hasty | chat | heartbeat =>
    exact .inl (.keep (fun h => h) rfl rfl rfl rfl)
  | connected => exact .inl (.keep (by simp [connectedTo]) rfl rfl rfl rfl)
  | sent _ _ _ _ hlook =>
    obtain ⟨hstate, hsession, hsessions, hbeats, hlistens⟩ := hlook.trims
    exact .inl ⟨hstate, hsession, hsessions, hbeats, hlistens⟩
  | resumed hlook => exact .inl hlook.trims
  | started => exact .inr (.inl (led.begins _ _ _ _))
  | stopped => exact .inr (.inr ⟨led.stopped, sessions_endCurrentSession client⟩)
  | beat =>
    refine .inl ⟨fun h => h, rfl, rfl, ?_, List.Sublist.refl _⟩
    rw [beating_putHeartbeat]
  | lastBeat => exact .inl ⟨fun h => h, rfl, rfl, List.filter_sublist.map _, List.Sublist.refl _⟩
  | received =>
    rw [handleAll_client]
    refine .inl ⟨fun h => h, rfl, rfl, List.Sublist.refl _, ?_⟩
    rw [listening_putReceiver]
    exact List.Sublist.refl _
  | hungUp | broke =>
    rw [handleAll_client]
    exact .inl ⟨by simp [haltedBy], rfl, rfl, List.Sublist.refl _, List.filter_sublist.map _⟩

theorem Moved.led (h : Moved now client net wait move client' net' wait' incidents)
    (led : client.Led) : client'.Led := by
  rcases h.loops led with htrims | hbegins | ⟨hrest, _⟩
  · exact led.sub htrims.session htrims.beating.subset htrims.listening.subset
  · constructor
    · intro loop hl
      have hmem : loop.session ∈ client'.beating := List.mem_map_of_mem hl
      rw [hbegins.beating] at hmem
      rw [hbegins.session, List.mem_singleton.mp hmem]
    · intro loop hl
      have hmem : loop.session ∈ client'.listening := List.mem_map_of_mem hl
      rw [hbegins.listening] at hmem
      rw [hbegins.session, List.mem_singleton.mp hmem]
  · exact hrest.led

/-! ### The last heartbeats of a session -/

def beatingBefore (client : Client) (bound : Nat) : List Nat :=
  client.beating.filter (· < bound)

/-- What the heartbeat loops of early sessions write. -/
def beatsBefore (bound : Nat) (client : Client) (net : Net σ) (now : Duration) (wait : Wait) :
    Move → List (ConnId × Bytes)
  | .beat session =>
      if session < bound then (client.writes? net now wait (.beat session)).toList else []
  | _ => []

lemma mem_beating_of_heartbeat? {session : Nat} {loop : HeartbeatLoop}
    (h : client.heartbeat? session = some loop) : session ∈ client.beating := by
  have hsession : loop.session = session := by simpa using List.find?_some h
  exact hsession ▸ List.mem_map_of_mem (List.mem_of_find?_eq_some h)

lemma mem_beatingBefore {bound session : Nat} {loop : HeartbeatLoop}
    (h : client.heartbeat? session = some loop) (hlt : session < bound) :
    session ∈ client.beatingBefore bound :=
  List.mem_filter.mpr ⟨mem_beating_of_heartbeat? h, decide_eq_true hlt⟩

lemma beating_endHeartbeat (client : Client) (session : Nat) :
    (client.endHeartbeat session).beating = client.beating.filter (· != session) := by
  simp only [beating, endHeartbeat, List.filter_map]
  rfl

lemma Led.beating_length_le (led : client.Led) (paced : client.Paced) :
    client.beating.length ≤ 1 := by
  have hnodup := paced.sessions
  cases hbeating : client.beating with
  | nil => exact Nat.zero_le 1
  | cons first rest =>
    cases rest with
    | nil => exact Nat.le_refl 1
    | cons second rest =>
      have hsame {session : Nat} (hs : session ∈ client.beating) :
          client.session = some session := by
        obtain ⟨loop, hl, rfl⟩ := List.mem_map.mp hs
        exact led.heartbeats loop hl
      have hfirst := hsame (hbeating ▸ List.mem_cons_self)
      have hsecond := hsame (hbeating ▸ List.mem_cons_of_mem _ List.mem_cons_self)
      rw [hfirst, Option.some.injEq] at hsecond
      rw [hbeating] at hnodup
      simp [hsecond] at hnodup

lemma Moved.harmless_of_silent {session : Nat}
    (h : Moved now client net wait (.beat session) client' net' wait' incidents)
    (hsilent : client.writes? net now wait (.beat session) = none) :
    incidents ⊆ Incident.harmless := by
  cases h with
  | still _ _ _ hskip => exact List.Subset.trans hskip Incident.skipped_subset_harmless
  | beat _ _ hwrites | lastBeat _ _ hwrites => simp [hsilent] at hwrites

lemma Moved.fading {bound : Nat} (h : Moved now client net wait move client' net' wait' incidents)
    (led : client.Led) (hbound : bound ≤ client.sessions)
    (hstate : client.state = .running → client.beatingBefore bound = []) :
    (client.beatsBefore bound net now wait move).length + (client'.beatingBefore bound).length ≤
        (client.beatingBefore bound).length ∧
      (client'.state = .running → client'.beatingBefore bound = []) ∧
      bound ≤ client'.sessions := by
  -- Loops of early sessions are never added: a new session has a number beyond the bound.
  have hshrinks : (client'.beatingBefore bound).length ≤ (client.beatingBefore bound).length ∧
      (client'.state = .running → client'.beatingBefore bound = []) ∧
      bound ≤ client'.sessions := by
    rcases h.loops led with htrims | hbegins | ⟨hrest, hsessions⟩
    · have hsub := htrims.beating.filter (· < bound)
      refine ⟨hsub.length_le, fun hrunning => ?_, htrims.sessions ▸ hbound⟩
      have hnil := hstate (htrims.running hrunning)
      rw [beatingBefore] at hnil
      exact List.sublist_nil.mp (hnil ▸ hsub)
    · have hnil : client'.beatingBefore bound = [] := by
        rw [beatingBefore, hbegins.beating]
        simp [hbound]
      refine ⟨by simp [hnil], fun _ => hnil, ?_⟩
      rw [hbegins.sessions]
      exact Nat.le_succ_of_le hbound
    · have hnil : client'.beatingBefore bound = [] := by
        simp [beatingBefore, Client.beating, hrest.heartbeats]
      exact ⟨by simp [hnil], fun _ => hnil, hsessions ▸ hbound⟩
  refine ⟨?_, hshrinks.2⟩
  have hsilent (hnone : client.beatsBefore bound net now wait move = []) :
      (client.beatsBefore bound net now wait move).length + (client'.beatingBefore bound).length ≤
        (client.beatingBefore bound).length := by
    rw [hnone, List.length_nil, Nat.zero_add]
    exact hshrinks.1
  cases h with
  | @beat _ session loop _ _ _ _ hloop hdue hwrites _ hrunning =>
    -- A loop goes on only if the client runs, and then it is not of an early session.
    by_cases hlt : session < bound
    · have hmem := mem_beatingBefore hloop hlt
      simp [hstate hrunning] at hmem
    · exact hsilent (by simp [beatsBefore, hlt])
  | @lastBeat _ session loop _ _ _ _ hloop hdue hwrites =>
    -- The loop that has sent is gone, which makes up for the heartbeat.
    by_cases hlt : session < bound
    · have hmem := mem_beatingBefore hloop hlt
      have hless : ((client.endHeartbeat session).beatingBefore bound).length <
          (client.beatingBefore bound).length := by
        rw [beatingBefore, beating_endHeartbeat, List.filter_comm]
        exact List.length_filter_lt_length_iff_exists.mpr ⟨session, hmem, by simp⟩
      have hone : (client.beatsBefore bound net now wait (.beat session)).length = 1 := by
        simp [beatsBefore, hlt, hwrites]
      omega
    · exact hsilent (by simp [beatsBefore, hlt])
  | still hnone =>
    apply hsilent
    cases move with
    | beat session => simp [beatsBefore, hnone]
    | _ => rfl
  | _ => exact hsilent rfl

/-! ### At rest -/

lemma AtRest.writes?_eq_none (rest : client.AtRest) (net : Net σ) (now : Duration) (wait : Wait)
    (move : Move) : client.writes? net now wait move = none := by
  cases move with
  | «begin» act => simp [writes?, rest.writer]
  | beat session => simp [writes?, heartbeat?, rest.heartbeats]
  | resume | receive => rfl

/-- Nothing but connecting moves a client at rest, nor does it do anything to anybody else. -/
theorem Moved.at_rest (h : Moved now client net wait move client' net' wait' incidents)
    (rest : client.AtRest) (idle : wait.inCall = false)
    (hconnect : ∀ limit, move ≠ .begin (.connect limit)) :
    client' = client ∧ net' = net ∧ wait'.inCall = false ∧
      incidents.flatMap Incident.updates = [] := by
  have hsilent := rest.writes?_eq_none net now
  cases h with
  | still _ hwait _ hskip =>
    refine ⟨rfl, rfl, ?_, ?_⟩
    · rcases hwait with rfl | ⟨_, hw⟩
      · exact idle
      · exact hw
    · exact Incident.updates_of_harmless (List.Subset.trans hskip Incident.skipped_subset_harmless)
  | stopped =>
    refine ⟨rest.stopped, ?_, rfl, rfl⟩
    simp [Net.drop, held, rest.writer, rest.heartbeats]
  | refused | late | connecting | connected => exact absurd rfl (hconnect _)
  | expired | resumed => cases idle
  | unsendable hstate | started hstate => simp [rest.state] at hstate
  | unsent _ hw | hasty _ hw | sent _ hw | chat _ _ hw | heartbeat hw | beat _ _ hw
  | lastBeat _ _ hw => simp [hsilent] at hw
  | received hl | hungUp hl | broke hl => simp [receiver?, rest.receivers] at hl

end

end ChatLoad.Client
