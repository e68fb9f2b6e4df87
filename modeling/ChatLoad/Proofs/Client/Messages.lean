import ChatLoad.Proofs.Client.Login

/-! Tales of clients that pause and send messages, that stop, or that go on by themselves, and what they
come to if nothing goes wrong. -/

namespace ChatLoad

namespace Incident

def ofChat : Incident → Bool
  | chatSent _ | chatFailed _ _ | chatRefused => true
  | _ => false

/-- What is not noted if all goes well. -/
def isSetback : Incident → Bool
  | connectFailed _ | authFailed _ | chatFailed _ _ | closedByServer | receiveFailed _ => true
  | _ => false

end Incident

namespace Tale

variable {standing : Standing} {wait : Wait} {acts : List Act} {story before after : List Incident}

lemma eased (h : Tale standing wait acts before)
    (hafter : Tale (standing.afterAll before) .nothing [] after) :
    Tale standing wait acts (before ++ after) := by
  induction h with
  | done => exact hafter
  | looped hlooping hloop _ ih => exact .looped hlooping hloop (ih hafter)
  | begins hcomes _ ih =>
    rw [Standing.afterAll_append] at hafter
    rw [List.append_assoc]
    exact .begins hcomes (ih hafter)
  | ends hends _ ih =>
    rw [Standing.afterAll_append] at hafter
    rw [List.append_assoc]
    exact .ends hends (ih hafter)

lemma of_stop (h : Tale standing .nothing [.stop] story) :
    ∃ loops, story = loops ++ [.stopped] ∧ Tale standing .nothing [] loops := by
  generalize hwait : Wait.nothing = wait at h
  generalize hacts : [Act.stop] = acts at h
  induction h with
  | done => cases hacts
  | looped hlooping hloop _ ih =>
    obtain ⟨loops, rfl, hloops⟩ := ih hwait hacts
    exact ⟨_ :: loops, rfl, .looped hlooping hloop hloops⟩
  | begins hcomes htale =>
    cases hacts
    cases hcomes with
    | stopped => exact ⟨[], by rw [htale.of_alone rfl]; rfl, .done⟩
    | sent hchat | unsent hchat | refused hchat => cases hchat
    | paused hpause | pausing hpause => cases hpause
  | ends hends =>
    subst hwait
    cases hends

/-! ### Messages -/

lemma of_chats (h : Tale standing wait acts story) (hwait : wait.inCall = false)
    (hacts : ∀ act ∈ acts, act.isChat ∨ act.isPause) :
    ∀ incident ∈ story, incident.ofLoop ∨ incident.ofChat := by
  induction h with
  | done => exact fun _ hi => absurd hi List.not_mem_nil
  | looped _ hloop _ ih => exact List.forall_mem_cons.mpr ⟨.inl hloop, ih hwait hacts⟩
  | @begins _ act acts incidents progress _ hcomes _ ih =>
    obtain ⟨hact, hlater⟩ := List.forall_mem_cons.mp hacts
    cases hcomes with
    | sent | unsent | refused =>
      exact List.forall_mem_cons.mpr ⟨.inr rfl, ih rfl hlater⟩
    | paused | pausing => exact ih rfl hlater
    | _ => simp [Act.isChat, Act.isPause] at hact
  | ends hends _ ih =>
    cases hends with
    | reached => exact ih rfl hacts
    | _ => cases hwait

lemma still_of_loop {incident : Incident} (hloop : incident.ofLoop)
    (hfine : incident.isSetback = false) : standing.after incident = standing := by
  cases incident with
  | closedByServer | receiveFailed => simp [Incident.isSetback] at hfine
  | heartbeatSent | heartbeatFailed | heartbeatReceived | responded | serverError => rfl
  | _ => cases hloop

/-- As long as nothing goes wrong, a client that is running sends all its messages and goes on running. -/
theorem sent (h : Tale standing wait acts story) (hrunning : standing.state = .running)
    (hwait : wait.inCall = false) (hacts : ∀ act ∈ acts, act.isChat ∨ act.isPause)
    (hfine : ∀ incident ∈ story, incident.isSetback = false) :
    (standing.afterAll story).state = .running ∧
      Incident.tally story .messagesSent = acts.countP Act.isChat := by
  -- on the tale, along which the client goes on running: nothing that goes well changes that
  induction h with
  | done => exact ⟨hrunning, rfl⟩
  | @looped standing _ _ incident _ _ hloop _ ih =>
    obtain ⟨hfirst, hrest⟩ := List.forall_mem_cons.mp hfine
    have hstill := @still_of_loop standing incident hloop hfirst
    rw [hstill] at ih
    obtain ⟨hstate, htally⟩ := ih hrunning hwait hacts hrest
    have hnone := @Incident.tally_ofLoop [incident] (List.forall_mem_singleton.mpr hloop)
      .messagesSent rfl
    rw [Standing.afterAll_cons, hstill, ← List.singleton_append, Incident.tally_append, hnone, htally,
      Nat.zero_add]
    exact ⟨hstate, rfl⟩
  | @begins standing act acts incidents progress story hcomes _ ih =>
    obtain ⟨hact, hlater⟩ := List.forall_mem_cons.mp hacts
    cases hcomes with
    | @sent _ request hchat =>
      obtain ⟨hstate, htally⟩ := ih hrunning rfl hlater (List.forall_mem_cons.mp hfine).2
      refine ⟨hstate, ?_⟩
      rw [Incident.tally_append, htally, List.countP_cons_of_pos hchat, Nat.add_comm]
      rfl
    | unsent => cases (List.forall_mem_cons.mp hfine).1
    | refused _ hout => exact absurd (.inr hrunning) hout
    | paused hpause | pausing hpause =>
      obtain ⟨hstate, htally⟩ := ih hrunning rfl hlater hfine
      refine ⟨hstate, htally.trans (List.countP_cons_of_neg ?_).symm⟩
      cases act with
      | pause | pauseUntil => exact Bool.false_ne_true
      | _ => cases hpause
    | _ => simp [Act.isChat, Act.isPause] at hact
  | ends hends _ ih =>
    cases hends with
    | reached => exact ih hrunning rfl hacts hfine
    | _ => cases hwait

end Tale

/-! ### Admissions -/

namespace Admission

variable {story : List Incident} {standing : Standing}

lemma eased (h : Admission story) (hlooping : standing.looping = false) {loops : List Incident}
    (hloops : Tale (standing.afterAll story) .nothing [] loops) : Admission (story ++ loops) := by
  obtain ⟨before, after, ok, rfl, hlogin, hstart⟩ := h
  refine ⟨before, after ++ loops, ok, List.append_assoc _ _ _, hlogin, ?_⟩
  rw [Standing.afterAll_append] at hloops
  rw [Starting] at hstart ⊢
  cases ok with
  | true =>
    obtain ⟨earlier, rfl, hearlier⟩ := hstart
    exact ⟨earlier ++ loops, rfl, List.forall_mem_append.mpr ⟨hearlier, hloops.of_over⟩⟩
  | false =>
    obtain rfl : after = [] := hstart
    exact hloops.of_alone (hlogin.looping.trans hlooping)

/-- If nothing goes wrong, an admitted client is logged in, and goes on running. -/
theorem running (h : Admission story) (hfine : ∀ incident ∈ story, incident.isSetback = false) :
    (standing.afterAll story).state = .running ∧ Incident.tally story .authSucceeded = 1 := by
  obtain ⟨before, after, ok, rfl, hlogin, hstart⟩ := h
  obtain ⟨hbefore, hafter⟩ := List.forall_mem_append.mp hfine
  cases hlogin with
  | unconnected => simp [Incident.isSetback] at hbefore
  | unauthenticated => simp [Incident.isSetback] at hbefore
  | authenticated =>
    obtain ⟨loops, rfl, hloops⟩ := hstart
    have hstill : Standing.afterAll ⟨.running, true⟩ loops = ⟨.running, true⟩ :=
      Standing.afterAll_of_still _ fun incident hi =>
        Tale.still_of_loop (hloops incident hi) (hafter incident (List.mem_cons_of_mem _ hi))
    have htally := @Incident.tally_ofLoop loops hloops .authSucceeded rfl
    constructor
    · rw [Standing.afterAll_append]
      exact congrArg Standing.state hstill
    · rw [Incident.tally_append, @Incident.tally_cons .started, htally]
      rfl

end Admission

end ChatLoad
