import ChatLoad.Proofs.Client.Handling

/-! What a single move adds to the counters, set against what the client tried to write, what it heard and
how its wait changed. -/

namespace ChatLoad

def Incident.tally (incidents : List Incident) (c : Counter) : Nat :=
  (incidents.flatMap counters).count c

namespace Incident

@[simp] lemma tally_nil (c : Counter) : tally [] c = 0 := rfl

@[simp] lemma tally_cons (incident : Incident) (incidents : List Incident) (c : Counter) :
    tally (incident :: incidents) c = incident.counters.count c + tally incidents c := by
  simp [tally]

@[simp] lemma tally_append (before after : List Incident) (c : Counter) :
    tally (before ++ after) c = tally before c + tally after c := by
  simp [tally]

lemma length_samples_le (incidents : List Incident) :
    (incidents.filterMap sample?).length ≤ tally incidents .messagesReceived := by
  induction incidents with
  | nil => exact Nat.le_refl _
  | cons incident incidents ih =>
    rw [tally_cons]
    cases hs : incident.sample? with
    | none =>
      rw [List.filterMap_cons_none hs]
      omega
    | some ms =>
      have hc : incident.counters.count .messagesReceived = 1 := by
        cases incident with
        | responded latency => rfl
        | _ => simp [sample?] at hs
      rw [List.filterMap_cons_some hs, List.length_cons, hc]
      omega

/-- What was refused because of the client's state, and a connection that ended in good order. -/
def harmless : List Incident :=
  [.authSkipped, .startSkipped, .chatRefused, .heartbeatSkipped, .closedByServer]

lemma updates_of_harmless {incidents : List Incident} (h : incidents ⊆ harmless) :
    incidents.flatMap updates = [] := by
  apply List.flatMap_eq_nil_iff.mpr
  intro incident hi
  have hm := h hi
  simp only [harmless, List.mem_cons, List.not_mem_nil, or_false] at hm
  rcases hm with rfl | rfl | rfl | rfl | rfl <;> rfl

lemma tally_of_harmless {incidents : List Incident} (h : incidents ⊆ harmless) (c : Counter) :
    tally incidents c = 0 := by
  apply List.count_eq_zero.mpr
  intro hc
  obtain ⟨incident, hi, hc⟩ := List.mem_flatMap.mp hc
  have hm := h hi
  simp only [harmless, List.mem_cons, List.not_mem_nil, or_false] at hm
  rcases hm with rfl | rfl | rfl | rfl | rfl <;> simp [counters] at hc

lemma skipped_subset_harmless :
    [.authSkipped, .startSkipped, .chatRefused, .heartbeatSkipped] ⊆ harmless := by
  decide

end Incident

namespace Wait

def isDialing : Wait → Bool
  | connection _ _ => true
  | _ => false

def isLoggingIn : Wait → Bool
  | auth _ => true
  | _ => false

lemma not_inCall_iff {wait : Wait} :
    wait.inCall = false ↔ wait.isDialing = false ∧ wait.isLoggingIn = false := by
  cases wait <;> simp [inCall, isDialing, isLoggingIn]

end Wait

namespace Net

variable {σ : Type} {net net' : Net σ} {now : Duration} {conn : ConnId} {bytes : Bytes}

lemma writable_of_write_ok (h : net.write now conn bytes = (.ok (), net')) :
    net.writable conn = true := by
  rw [write] at h
  rw [writable]
  cases hl : net.link? conn with
  | none => simp [hl] at h
  | some link =>
    rw [hl] at h
    by_cases hb : (link.broken || link.closed) = true
    · simp [hb] at h
    · simpa using hb

lemma not_writable_of_write_error {cause : IoError}
    (h : net.write now conn bytes = (.error cause, net')) : net.writable conn = false := by
  rw [write] at h
  rw [writable]
  cases hl : net.link? conn with
  | none => rfl
  | some link =>
    rw [hl] at h
    by_cases hb : (link.broken || link.closed) = true
    · simp [hb]
    · simp [hb] at h

end Net

namespace Client

variable {σ : Type}

section

variable (client : Client) (net : Net σ) (now : Duration) (wait : Wait)

/-- What a move tries to write to a connection that takes nothing. -/
def lost (move : Move) : List (ConnId × Bytes) :=
  (client.writes? net now wait move).toList.filter fun entry => !net.writable entry.1

def lostChats : Move → List (ConnId × Bytes)
  | .begin act =>
      if (client.message? act).isSome then client.lost net now wait (.begin act) else []
  | _ => []

def lostBeats : Move → List (ConnId × Bytes)
  | .begin .heartbeat => client.lost net now wait (.begin .heartbeat)
  | .beat session => client.lost net now wait (.beat session)
  | _ => []

def refuses : Act → Bool
  | .authenticate => client.state ≠ .connected
  | .start _ => client.state ≠ .authenticated
  | .single _ _ | .group _ _ => !client.isAuthenticated
  | .heartbeat => client.writer.isNone
  | _ => false

/-- A refused operation, or a look of a receive loop that brings no frame and no failure: nothing at
all, only headers to skip, or the orderly end of the connection. -/
def Uneventful : Move → Prop
  | .begin act => client.refuses act = true
  | .receive session => client.heard net (.receive session) = [] ∧
      client.readFailures net (.receive session) = []
  | _ => False

end

variable {now : Duration} {client client' : Client} {net net' : Net σ} {wait wait' : Wait}
  {move : Move} {incidents : List Incident}

/-! ### Writing -/

lemma lost_of_none (h : client.writes? net now wait move = none) :
    client.lost net now wait move = [] := by
  simp [lost, h]

lemma lost_of_write {conn : ConnId} {bytes : Bytes} {result : Except IoError Unit}
    (hw : client.writes? net now wait move = some (conn, bytes))
    (hr : net.write now conn bytes = (result, net')) :
    client.lost net now wait move =
      match result with
      | .ok () => []
      | .error _ => [(conn, bytes)] := by
  cases result with
  | ok _ => simp [lost, hw, Net.writable_of_write_ok hr]
  | error cause => simp [lost, hw, Net.not_writable_of_write_error hr]

lemma lostChats_of_none (h : client.writes? net now wait move = none) :
    client.lostChats net now wait move = [] := by
  cases move with
  | «begin» act => simp [lostChats, lost_of_none h]
  | _ => rfl

lemma lostBeats_of_none (h : client.writes? net now wait move = none) :
    client.lostBeats net now wait move = [] := by
  unfold lostBeats
  split
  · exact lost_of_none h
  · exact lost_of_none h
  · rfl

lemma tally_handleAll (client : Client) (now : Duration) (items : List Item) {c : Counter}
    (hb : c ≠ .heartbeatsReceived) (hm : c ≠ .messagesReceived) (he : c ≠ .errors) :
    Incident.tally (client.handleAll now items).2 c = 0 := by
  rw [Incident.tally, handleAll_counters]
  exact Frame.count_counters hb hm he _

lemma tally_handleAll_errors (client : Client) (now : Duration) (items : List Item) :
    Incident.tally (client.handleAll now items).2 .errors =
      (items.filterMap Item.frame?).countP fun frame => frame.kind = .error := by
  rw [Incident.tally, handleAll_counters, Frame.count_errors]

/-! ### The books of a move -/

lemma Looked.attempts {deadline : Duration}
    (h : Looked now deadline client net client' net' wait' incidents) :
    Incident.tally incidents .connectionsAttempted = 0 ∧
      Incident.tally incidents .connectionsSucceeded = 0 ∧
      Incident.tally incidents .connectionsFailed = 0 ∧ wait'.isDialing = false := by
  cases h <;> simp [Incident.counters, Wait.isDialing]

lemma Moved.attempts (h : Moved now client net wait move client' net' wait' incidents) :
    Incident.tally incidents .connectionsAttempted + wait.isDialing.toNat =
      Incident.tally incidents .connectionsSucceeded +
        Incident.tally incidents .connectionsFailed + wait'.isDialing.toNat := by
  cases h with
  | still _ hwait _ hskip =>
    have hs := List.Subset.trans hskip Incident.skipped_subset_harmless
    simp only [Incident.tally_of_harmless hs]
    rcases hwait with rfl | ⟨hw, hw'⟩
    · rfl
    · rw [(Wait.not_inCall_iff.mp hw).1, (Wait.not_inCall_iff.mp hw').1]
  | sent _ _ _ _ hlook | resumed hlook =>
    obtain ⟨ha, hs, hf, hw⟩ := hlook.attempts
    rw [ha, hs, hf, hw]
    rfl
  | received | hungUp | broke => simp [tally_handleAll, Incident.counters]
  | @chat _ _ _ _ result | @heartbeat _ _ result | @beat _ _ _ _ _ result
  | @lastBeat _ _ _ _ _ result => cases result <;> simp [Incident.counters]
  | _ => simp [Incident.counters, Wait.isDialing]

/-- A client can log in that is connected, also one that was when the call under way began. -/
def mayLogIn (client : Client) (wait : Wait) : Bool :=
  client.state == .connected || wait.isLoggingIn

lemma mayLogIn_of_ne {client : Client} (h : client.state ≠ .connected) (wait : Wait) :
    client.mayLogIn wait = wait.isLoggingIn := by
  simp [mayLogIn, h]

lemma isLoggingIn_le (client : Client) (wait : Wait) :
    wait.isLoggingIn.toNat ≤ (client.mayLogIn wait).toNat := by
  rw [mayLogIn]
  cases wait.isLoggingIn <;> simp

lemma Looked.logins {deadline : Duration}
    (h : Looked now deadline client net client' net' wait' incidents) :
    Incident.tally incidents .authSucceeded + (client'.mayLogIn wait').toNat ≤ 1 := by
  cases h with
  | answered => simp [Incident.counters, mayLogIn, Wait.isLoggingIn]
  | _ => simp [Incident.counters, Bool.toNat_le]

lemma Moved.logins (h : Moved now client net wait move client' net' wait' incidents) :
    Incident.tally incidents .authSucceeded + (client'.mayLogIn wait').toNat ≤
      Incident.tally incidents .connectionsSucceeded + (client.mayLogIn wait).toNat := by
  cases h with
  | still _ hwait _ hskip =>
    have hs := List.Subset.trans hskip Incident.skipped_subset_harmless
    simp only [Incident.tally_of_harmless hs]
    rcases hwait with rfl | ⟨hw, hw'⟩
    · exact Nat.le_refl _
    · simp [mayLogIn, (Wait.not_inCall_iff.mp hw).2, (Wait.not_inCall_iff.mp hw').2]
  | @connected _ conn =>
    have hle := Bool.toNat_le ((client.connectedTo conn).mayLogIn .nothing)
    exact Nat.le_trans (Nat.add_le_add (Nat.le_refl 0) hle) (Nat.le_add_right 1 _)
  | sent hstate _ _ _ hlook =>
    have hl := hlook.logins
    have hm : client.mayLogIn .nothing = true := by simp [mayLogIn, hstate]
    rw [hm]
    exact Nat.le_trans hl (Nat.le_add_left _ _)
  | @resumed deadline _ _ _ _ hlook =>
    have hl := hlook.logins
    have hm : client.mayLogIn (.auth deadline) = true := by simp [mayLogIn, Wait.isLoggingIn]
    rw [hm]
    exact Nat.le_trans hl (Nat.le_add_left _ _)
  | received =>
    simp [tally_handleAll, handleAll_client, mayLogIn, putReceiver]
  | hungUp | broke =>
    rw [mayLogIn_of_ne (by simp [haltedBy])]
    simpa [tally_handleAll, Incident.counters] using isLoggingIn_le client wait
  | @chat _ _ _ _ result | @heartbeat _ _ result | @beat _ _ _ _ _ result
  | @lastBeat _ _ _ _ _ result =>
    cases result <;>
      simp [Incident.counters, mayLogIn, drawId, putHeartbeat, endHeartbeat]
  | started | stopped =>
    rw [mayLogIn_of_ne (by simp [startedOn, Client.stopped])]
    simp [Incident.counters, Wait.isLoggingIn]
  | _ => simp [Incident.counters, mayLogIn, drawId, Wait.isLoggingIn]

lemma Looked.errors {deadline : Duration}
    (h : Looked now deadline client net client' net' wait' incidents) :
    Incident.tally incidents .errors =
      Incident.tally incidents .connectionsFailed + Incident.tally incidents .authFailed := by
  cases h <;> simp [Incident.counters]

lemma Moved.errors (h : Moved now client net wait move client' net' wait' incidents) :
    Incident.tally incidents .errors =
      Incident.tally incidents .connectionsFailed + Incident.tally incidents .authFailed +
        (client.lostChats net now wait move).length + (client.lostBeats net now wait move).length +
        ((client.heard net move).countP fun frame => frame.kind = .error) +
        (client.readFailures net move).length := by
  cases h with
  | still hwrites _ hover hskip =>
    have hs := List.Subset.trans hskip Incident.skipped_subset_harmless
    rw [lostChats_of_none hwrites, lostBeats_of_none hwrites]
    simp only [Incident.tally_of_harmless hs]
    cases move with
    | receive session =>
      have hnone : client.receiver? session = none := hover
      simp [heard, readFailures, finds, hnone, Polled.faults]
    | _ => rfl
  | sent _ _ _ _ hlook =>
    rw [hlook.errors]
    simp [lostChats, lostBeats, heard, readFailures, message?]
  | resumed hlook =>
    rw [hlook.errors]
    simp [lostChats, lostBeats, heard, readFailures]
  | received _ hf | hungUp _ hf | broke _ hf =>
    simp [tally_handleAll, tally_handleAll_errors, lostChats, lostBeats, heard, readFailures, hf,
      Polled.faults, Incident.counters]
  | @chat act _ _ _ result _ hm _ hw hr =>
    have hl := lost_of_write hw hr
    have hb : client.lostBeats net now .nothing (.begin act) = [] := by
      cases act <;> first | rfl | cases hm
    rw [hb]
    cases result <;> simp [lostChats, hm, hl, heard, readFailures, Incident.counters]
  | @heartbeat _ _ result _ hw hr | @beat _ _ _ _ _ result _ _ _ hw hr
  | @lastBeat _ _ _ _ _ result _ _ _ hw hr =>
    have hl := lost_of_write hw hr
    cases result <;>
      simp [lostChats, lostBeats, hl, heard, readFailures, message?, Incident.counters]
  | _ => simp [lostChats, lostBeats, heard, readFailures, message?, Incident.counters]

/-- Headers that are skipped, a wait that runs out and the orderly end of a connection add nothing to
what the frames of a look count as. -/
lemma Moved.receptions {session : Nat}
    (h : Moved now client net wait (.receive session) client' net' wait' incidents) (c : Counter) :
    Incident.tally incidents c =
      ((client.heard net (.receive session)).flatMap Frame.counters).count c +
        if c = .errors then (client.readFailures net (.receive session)).length else 0 := by
  cases h with
  | still _ _ hover hskip =>
    have hs := List.Subset.trans hskip Incident.skipped_subset_harmless
    have hnone : client.receiver? session = none := hover
    simp [Incident.tally_of_harmless hs, heard, readFailures, finds, hnone, Polled.faults]
  | received _ hf | hungUp _ hf =>
    simp [Incident.tally, handleAll_counters, heard, readFailures, hf, Polled.faults,
      Incident.counters]
  | broke _ hf =>
    rw [Incident.tally_append, Incident.tally, handleAll_counters]
    cases c <;> simp [heard, readFailures, hf, Polled.faults, Incident.counters]

lemma Looked.receptions {deadline : Duration}
    (h : Looked now deadline client net client' net' wait' incidents) :
    Incident.tally incidents .heartbeatsReceived = 0 ∧
      Incident.tally incidents .messagesReceived = 0 := by
  cases h <;> simp [Incident.counters]

lemma Moved.counted (h : Moved now client net wait move client' net' wait' incidents) :
    Incident.tally incidents .heartbeatsReceived =
        (client.heard net move).countP (fun frame => frame.kind = .heartbeat) ∧
      Incident.tally incidents .messagesReceived =
        (client.heard net move).countP fun frame => frame.kind.isChatResponse := by
  cases h with
  | still _ _ hover hskip =>
    have hs := List.Subset.trans hskip Incident.skipped_subset_harmless
    simp only [Incident.tally_of_harmless hs]
    cases move with
    | receive session =>
      have hnone : client.receiver? session = none := hover
      simp [heard, finds, hnone]
    | _ => exact ⟨rfl, rfl⟩
  | sent _ _ _ _ hlook | resumed hlook => exact hlook.receptions
  | received _ hf | hungUp _ hf | broke _ hf =>
    simp [Incident.tally, handleAll_counters, Frame.count_heartbeats, Frame.count_messages, heard,
      hf, Incident.counters]
  | @chat _ _ _ _ result | @heartbeat _ _ result | @beat _ _ _ _ _ result
  | @lastBeat _ _ _ _ _ result => cases result <;> simp [Incident.counters, heard]
  | _ => simp [Incident.counters, heard]

lemma Moved.harmless (h : Moved now client net wait move client' net' wait' incidents)
    (hquiet : client.Uneventful net move) : incidents ⊆ Incident.harmless := by
  cases h with
  | still _ _ _ hskip => exact List.Subset.trans hskip Incident.skipped_subset_harmless
  | received _ hf | hungUp _ hf =>
    obtain ⟨hheard, _⟩ := hquiet
    rw [heard, hf] at hheard
    rw [handleAll_nothing _ _ hheard]
    simp [Incident.harmless]
  | broke _ hf =>
    obtain ⟨_, hfail⟩ := hquiet
    simp [readFailures, hf, Polled.faults] at hfail
  | unsendable hstate | unsent hstate | hasty hstate | sent hstate | started hstate =>
    simp [Uneventful, refuses, hstate] at hquiet
  | @chat act _ _ _ _ _ hm hauth =>
    cases act <;> simp [message?, Uneventful, refuses, hauth] at hm hquiet
  | @heartbeat conn _ _ _ hw =>
    cases hwriter : client.writer <;> simp [writes?, Uneventful, refuses, hwriter] at hw hquiet
  | _ => cases hquiet

end Client

end ChatLoad
