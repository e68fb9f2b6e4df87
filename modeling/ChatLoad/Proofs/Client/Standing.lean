import ChatLoad.Proofs.Client.Mooring
import ChatLoad.Proofs.Client.Verdict

/-! How a client stands, as far as its incidents tell: they make up its state, and whether it has any
loops. -/

namespace ChatLoad

structure Standing where
  state : ClientState
  /-- whether there may be loops -/
  looping : Bool
  deriving DecidableEq

namespace Standing

def after (standing : Standing) : Incident → Standing
  | .connected => { standing with state := .connected }
  | .authenticated => { standing with state := .authenticated }
  | .started => ⟨.running, true⟩
  | .stopped => ⟨.stopped, false⟩
  | .closedByServer | .receiveFailed _ => { standing with state := .stopped }
  | _ => standing

def afterAll (standing : Standing) (incidents : List Incident) : Standing :=
  incidents.foldl after standing

section

variable (standing : Standing)

@[simp] lemma afterAll_nil : standing.afterAll [] = standing := rfl

@[simp] lemma afterAll_cons (incident : Incident) (incidents : List Incident) :
    standing.afterAll (incident :: incidents) = (standing.after incident).afterAll incidents := rfl

lemma afterAll_append (before later : List Incident) :
    standing.afterAll (before ++ later) = (standing.afterAll before).afterAll later :=
  List.foldl_append

lemma afterAll_of_still {incidents : List Incident}
    (h : ∀ incident ∈ incidents, standing.after incident = standing) :
    standing.afterAll incidents = standing := by
  induction incidents with
  | nil => rfl
  | cons incident incidents ih =>
    obtain ⟨hfirst, hlater⟩ := List.forall_mem_cons.mp h
    rw [afterAll_cons, hfirst, ih hlater]

lemma afterAll_of_skipped {incidents : List Incident}
    (h : incidents ⊆ [.authSkipped, .startSkipped, .chatRefused, .heartbeatSkipped]) :
    standing.afterAll incidents = standing := by
  refine standing.afterAll_of_still fun incident hi => ?_
  have hone := h hi
  simp only [List.mem_cons, List.not_mem_nil, or_false] at hone
  rcases hone with rfl | rfl | rfl | rfl <;> rfl

lemma afterAll_of_inbound {incidents : List Incident}
    (h : ∀ incident ∈ incidents, incident.isInbound) : standing.afterAll incidents = standing := by
  refine standing.afterAll_of_still fun incident hi => ?_
  have hinbound := h incident hi
  cases incident <;> first | rfl | cases hinbound

/-- Nobody gets back to where nothing was connected or stopped yet. -/
lemma afterAll_disconnected {incidents : List Incident}
    (h : (standing.afterAll incidents).state = .disconnected) :
    standing.state = .disconnected ∧ .connected ∉ incidents ∧ .stopped ∉ incidents := by
  induction incidents generalizing standing with
  | nil => exact ⟨h, List.not_mem_nil, List.not_mem_nil⟩
  | cons incident incidents ih =>
    obtain ⟨hstate, hconnected, hstopped⟩ := ih _ h
    cases incident with
    | connected | stopped | authenticated | started | closedByServer | receiveFailed => cases hstate
    | _ => exact ⟨hstate, by simpa using hconnected, by simpa using hstopped⟩

end

end Standing

namespace Client

variable {σ : Type}

/-- The client stands as told, holds what its state requires, and its loops belong to its session. -/
structure Stands (client : Client) (wait : Wait) (standing : Standing) : Prop where
  state : client.state = standing.state
  alone : standing.looping = false → client.heartbeats = [] ∧ client.receivers = []
  led : client.Led
  wired : client.Wired wait
  ready : client.Ready wait
  readable : client.state = .authenticated → client.reader.isSome

lemma fresh_stands (id : UInt64) (settings : Settings) :
    Client.Stands { id, settings } .nothing ⟨.disconnected, false⟩ where
  state := rfl
  alone := fun _ => ⟨rfl, rfl⟩
  led := ⟨by simp, by simp⟩
  wired := fun h => by simp [Client.mayLogIn, Wait.isLoggingIn, Client.isAuthenticated] at h
  ready := fun h => by simp [Client.mayLogIn, Wait.isLoggingIn] at h
  readable := fun h => by cases h

variable {now : Duration} {client client' : Client} {net net' : Net σ} {wait wait' : Wait}
  {move : Move} {incidents : List Incident} {standing : Standing}

lemma Moved.owner (h : Moved now client net wait move client' net' wait' incidents) :
    client'.id = client.id ∧ client'.settings = client.settings := by
  have hlooked {deadline : Duration} {client client' : Client} {net net' : Net σ} {wait' : Wait}
      (h : Looked now deadline client net client' net' wait' incidents) :
      client'.id = client.id ∧ client'.settings = client.settings := by
    cases h <;> exact ⟨rfl, rfl⟩
  have hended (client : Client) : client.endCurrentSession.id = client.id ∧
      client.endCurrentSession.settings = client.settings := by
    rw [endCurrentSession]
    split <;> exact ⟨rfl, rfl⟩
  cases h with
  | sent _ _ _ _ hlook =>
    obtain ⟨hid, hsettings⟩ := hlooked hlook
    exact ⟨hid, hsettings⟩
  | resumed hlook => exact hlooked hlook
  | started | stopped => exact hended client
  | received | hungUp | broke =>
    rw [handleAll_client]
    exact ⟨rfl, rfl⟩
  | _ => exact ⟨rfl, rfl⟩

lemma Looked.state {deadline : Duration}
    (h : Looked now deadline client net client' net' wait' incidents)
    (hstate : client.state = standing.state) :
    client'.state = (standing.afterAll incidents).state := by
  cases h with
  | answered => rfl
  | noReader | failed | waits => exact hstate

lemma Moved.state (h : Moved now client net wait move client' net' wait' incidents)
    (hstate : client.state = standing.state) :
    client'.state = (standing.afterAll incidents).state := by
  cases h with
  | still _ _ _ hskip => rw [standing.afterAll_of_skipped hskip, hstate]
  | refused | late | connecting | expired | unsendable | unsent | hasty => exact hstate
  | connected | started | stopped => rfl
  | sent _ _ _ _ hlook =>
    have hdrawn : client.drawId.2.state = standing.state := hstate
    exact hlook.state hdrawn
  | resumed hlook => exact hlook.state hstate
  | @chat _ _ _ _ result | @heartbeat _ _ result | @beat _ _ _ _ _ result
  | @lastBeat _ _ _ _ _ result => cases result <;> exact hstate
  | received =>
    rw [standing.afterAll_of_inbound (handleAll_inbound _ _ _), handleAll_client]
    exact hstate
  | hungUp | broke =>
    rw [standing.afterAll_append, standing.afterAll_of_inbound (handleAll_inbound _ _ _)]
    rfl

lemma Moved.alone (h : Moved now client net wait move client' net' wait' incidents)
    (led : client.Led)
    (alone : standing.looping = false → client.heartbeats = [] ∧ client.receivers = [])
    (hlooping : (standing.afterAll incidents).looping = false) :
    client'.heartbeats = [] ∧ client'.receivers = [] := by
  have hlooked {deadline : Duration} {client client' : Client} {net net' : Net σ} {wait' : Wait}
      (h : Looked now deadline client net client' net' wait' incidents)
      (hlooping : (standing.afterAll incidents).looping = false)
      (alone : standing.looping = false → client.heartbeats = [] ∧ client.receivers = []) :
      client'.heartbeats = [] ∧ client'.receivers = [] := by
    cases h <;> exact alone hlooping
  cases h with
  | still _ _ _ hskip =>
    rw [standing.afterAll_of_skipped hskip] at hlooping
    exact alone hlooping
  | refused | late | connecting | connected | expired | unsendable | unsent | hasty =>
    exact alone hlooping
  | sent _ _ _ _ hlook => exact hlooked hlook hlooping alone
  | resumed hlook => exact hlooked hlook hlooping alone
  | @chat _ _ _ _ result | @heartbeat _ _ result => cases result <;> exact alone hlooping
  | started => cases hlooping
  | stopped => exact ⟨led.stopped.heartbeats, led.stopped.receivers⟩
  | @beat _ _ loop _ _ result _ hloop | @lastBeat _ _ loop _ _ result _ hloop =>
    have hnone : standing.looping = false := by cases result <;> exact hlooping
    simp [heartbeat?, (alone hnone).1] at hloop
  | received hloop =>
    rw [standing.afterAll_of_inbound (handleAll_inbound _ _ _)] at hlooping
    simp [receiver?, (alone hlooping).2] at hloop
  | hungUp hloop | broke hloop =>
    rw [standing.afterAll_append, standing.afterAll_of_inbound (handleAll_inbound _ _ _)] at hlooping
    have hnone : standing.looping = false := hlooping
    simp [receiver?, (alone hnone).2] at hloop

lemma Looked.readable {deadline : Duration}
    (h : Looked now deadline client net client' net' wait' incidents)
    (hreader : client.reader.isSome) : client'.reader.isSome := by
  cases h with
  | noReader => exact hreader
  | answered | failed | waits => rfl

lemma Moved.readable (h : Moved now client net wait move client' net' wait' incidents)
    (ready : client.Ready wait) (readable : client.state = .authenticated → client.reader.isSome) :
    client'.state = .authenticated → client'.reader.isSome := by
  cases h with
  | connected => exact fun _ => rfl
  | sent hstate _ _ _ hlook =>
    exact fun _ => hlook.readable (ready (by simp [mayLogIn, hstate]))
  | resumed hlook =>
    exact fun _ => hlook.readable (ready (by simp [mayLogIn, Wait.isLoggingIn]))
  | started | stopped | hungUp | broke => exact fun hstate => by cases hstate
  | received =>
    rw [handleAll_client]
    exact readable
  | _ => exact readable

/-- The incidents of a move tell how the client stands after it. -/
theorem Moved.stands (h : Moved now client net wait move client' net' wait' incidents)
    (stands : client.Stands wait standing) :
    client'.Stands wait' (standing.afterAll incidents) where
  state := h.state stands.state
  alone := h.alone stands.led stands.alone
  led := h.led stands.led
  wired := h.wired stands.wired
  ready := h.ready stands.ready
  readable := h.readable stands.ready stands.readable

end Client

end ChatLoad
