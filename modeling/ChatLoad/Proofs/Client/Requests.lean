import ChatLoad.Proofs.Client.Tally

/-! Request ids: how they are drawn, which of them enter the table of requests in flight, and what keeps
them apart. -/

namespace ChatLoad

namespace Pending

variable {pending : Pending}

lemma nodup_hear (h : pending.ids.Nodup) (frame : Frame) : (pending.hear frame).ids.Nodup := by
  rw [hear]
  split
  · rw [ids_erase]
    exact h.filter _
  · exact h

lemma nodup_foldl_hear (h : pending.ids.Nodup) (frames : List Frame) :
    (frames.foldl hear pending).ids.Nodup := by
  induction frames generalizing pending with
  | nil => exact h
  | cons frame frames ih => exact ih (nodup_hear h frame)

lemma mem_hear (pending : Pending) (frame : Frame) (id : UInt64) :
    id ∈ (pending.hear frame).ids ↔
      id ∈ pending.ids ∧ (frame.kind.isChatResponse → frame.requestId ≠ id) := by
  rw [hear]
  split
  · next hk => simp [ids_erase, hk, ne_comm]
  · next hk => simp [hk]

lemma mem_foldl_hear (frames : List Frame) (pending : Pending) (id : UInt64) :
    id ∈ (frames.foldl hear pending).ids ↔
      id ∈ pending.ids ∧
        ∀ frame ∈ frames, frame.kind.isChatResponse → frame.requestId ≠ id := by
  induction frames generalizing pending with
  | nil => simp
  | cons frame frames ih => simp [ih, mem_hear, and_assoc]

lemma hear_of_unmatched {frame : Frame}
    (h : ¬ (frame.kind.isChatResponse ∧ frame.requestId ∈ pending.ids)) :
    pending.hear frame = pending := by
  rw [hear]
  split
  · next hk => exact erase_of_notMem fun hm => h ⟨hk, hm⟩
  · rfl

lemma length_erase (hnodup : pending.ids.Nodup) (id : UInt64) :
    (if id ∈ pending.ids then 1 else 0) + (pending.erase id).length = pending.length := by
  rw [← length_ids, ← length_ids, ids_erase, ← List.Nodup.erase_eq_filter hnodup,
    List.length_erase]
  have hpos := List.length_pos_of_mem (a := id) (l := pending.ids)
  split
  · next hm =>
    have := hpos hm
    omega
  · omega

lemma matched_add_length (frames : List Frame) (hnodup : pending.ids.Nodup) :
    pending.matched frames + (frames.foldl hear pending).length = pending.length := by
  induction frames generalizing pending with
  | nil => exact Nat.zero_add _
  | cons frame frames ih =>
    have hrest := ih (nodup_hear hnodup frame)
    have hone : (if frame.kind.isChatResponse ∧ frame.requestId ∈ pending.ids then 1 else 0) +
        (pending.hear frame).length = pending.length := by
      by_cases hk : frame.kind.isChatResponse = true
      · simpa only [hear, hk, true_and, if_true] using length_erase hnodup frame.requestId
      · simp [hear, hk]
    rw [matched, List.foldl_cons]
    omega

end Pending

namespace Client

/-! ### Request ids -/

lemma toNat_requestId (id : UInt64) (drawn : UInt32) :
    (requestId id drawn).toNat =
      id.toNat % 2 ^ 32 * 2 ^ 32 + (drawn.toNat % 0xFFFFFFFF + 1) := by
  have hlow : (drawn.toUInt64 % 0xFFFFFFFF + 1).toNat = drawn.toNat % 0xFFFFFFFF + 1 := by
    rw [UInt64.toNat_add, UInt64.toNat_mod, UInt32.toNat_toUInt64]
    simp only [UInt64.reduceToNat]
    omega
  have hhigh : (id <<< 32).toNat = (id.toNat % 2 ^ 32) <<< 32 := by
    rw [UInt64.toNat_shiftLeft, Nat.shiftLeft_eq, Nat.shiftLeft_eq]
    simp only [UInt64.reduceToNat, Nat.reducePow, Nat.reduceMod]
    omega
  have hlt : drawn.toNat % 0xFFFFFFFF + 1 < 2 ^ 32 := by omega
  rw [requestId, UInt64.toNat_or, hlow, hhigh, ← Nat.shiftLeft_add_eq_or_of_lt hlt,
    Nat.shiftLeft_eq]

lemma requestId_ne_zero (id : UInt64) (drawn : UInt32) : requestId id drawn ≠ 0 := by
  intro h
  have hnat := congrArg UInt64.toNat h
  rw [toNat_requestId, UInt64.toNat_zero] at hnat
  omega

lemma requestId_div {id : UInt64} (hid : id.toNat < 2 ^ 32) (drawn : UInt32) :
    (requestId id drawn).toNat / 2 ^ 32 = id.toNat := by
  rw [toNat_requestId]
  omega

def issued (id : UInt64) (n : Nat) : List UInt64 :=
  (List.range n).map fun k => requestId id (UInt32.ofNat k)

lemma issued_succ (id : UInt64) (n : Nat) :
    issued id (n + 1) = issued id n ++ [requestId id (UInt32.ofNat n)] := by
  simp [issued, List.range_succ]

lemma exists_of_mem_issued {id request : UInt64} {n : Nat} (h : request ∈ issued id n) :
    ∃ drawn, request = requestId id drawn := by
  obtain ⟨k, -, rfl⟩ := List.mem_map.mp h
  exact ⟨UInt32.ofNat k, rfl⟩

theorem zero_notMem_issued (id : UInt64) (n : Nat) : 0 ∉ issued id n := by
  intro h
  obtain ⟨drawn, hzero⟩ := exists_of_mem_issued h
  exact requestId_ne_zero id drawn hzero.symm

theorem div_of_mem_issued {id request : UInt64} (hid : id.toNat < 2 ^ 32) {n : Nat}
    (h : request ∈ issued id n) : request.toNat / 2 ^ 32 = id.toNat := by
  obtain ⟨drawn, rfl⟩ := exists_of_mem_issued h
  exact requestId_div hid drawn

theorem issued_disjoint {id other : UInt64} (hid : id.toNat < 2 ^ 32) (hother : other.toNat < 2 ^ 32)
    (hne : id ≠ other) (n m : Nat) : (issued id n).Disjoint (issued other m) := by
  intro request hmine htheirs
  have hsame := (div_of_mem_issued hid hmine).symm.trans (div_of_mem_issued hother htheirs)
  exact hne (UInt64.toNat_inj.mp hsame)

theorem issued_nodup (id : UInt64) {n : Nat} (hn : n ≤ 2 ^ 32 - 1) : (issued id n).Nodup := by
  refine List.Nodup.map_on ?_ List.nodup_range
  intro a ha b hb heq
  have hnat := congrArg UInt64.toNat heq
  rw [List.mem_range] at ha hb
  rw [toNat_requestId, toNat_requestId, UInt32.toNat_ofNat', UInt32.toNat_ofNat'] at hnat
  omega

/-! ### What the end of a session leaves alone -/

section

variable (client : Client)

@[simp] lemma endCurrentSession_id : client.endCurrentSession.id = client.id := by
  rw [endCurrentSession]
  split <;> rfl

@[simp] lemma endCurrentSession_drawn : client.endCurrentSession.drawn = client.drawn := by
  rw [endCurrentSession]
  split <;> rfl

@[simp] lemma endCurrentSession_pending : client.endCurrentSession.pending = client.pending := by
  rw [endCurrentSession]
  split <;> rfl

@[simp] lemma endCurrentSession_writer : client.endCurrentSession.writer = client.writer := by
  rw [endCurrentSession]
  split <;> rfl

variable (now interval : Duration) (conn : ConnId) (reader : Reader)

lemma startedOn_writer : (client.startedOn now interval conn reader).writer = client.writer :=
  client.endCurrentSession_writer

end

/-! ### Draws -/

variable {σ : Type}

/-- Drawn for a chat message, once the client is found authenticated. -/
def chatIds (client : Client) (wait : Wait) : Move → List UInt64
  | .begin act =>
      if wait = .nothing ∧ client.isAuthenticated ∧ (client.message? act).isSome then
        [client.drawId.1]
      else []
  | _ => []

def authIds (client : Client) (wait : Wait) : Move → List UInt64
  | .begin .authenticate =>
      if wait = .nothing ∧ client.state = .connected then [client.drawId.1] else []
  | _ => []

lemma length_draws_le (client : Client) (wait : Wait) (move : Move) :
    (client.chatIds wait move ++ client.authIds wait move).length ≤ 1 := by
  cases move with
  | «begin» act =>
    cases act <;> simp [chatIds, authIds, message?] <;> split <;> simp
  | _ => simp [chatIds, authIds]

/-- A client that may log in or has logged in holds a connection to write to. -/
def Wired (client : Client) (wait : Wait) : Prop :=
  client.mayLogIn wait ∨ client.isAuthenticated → client.writer.isSome

variable {now : Duration} {client client' : Client} {net net' : Net σ} {wait wait' : Wait}
  {move : Move} {incidents : List Incident}

lemma chatIds_of_silent (wired : client.Wired wait)
    (h : client.writes? net now wait move = none) : client.chatIds wait move = [] := by
  cases move with
  | «begin» act =>
    apply if_neg
    rintro ⟨rfl, hauth, hm⟩
    obtain ⟨message, hm⟩ := Option.isSome_iff_exists.mp hm
    obtain ⟨conn, hw⟩ := Option.isSome_iff_exists.mp (wired (.inr hauth))
    cases act <;> simp [writes?, frame?, message?, hw, hauth] at h hm
  | _ => rfl

lemma authIds_of_silent (wired : client.Wired wait)
    (h : client.writes? net now wait move = none) : client.authIds wait move = [] := by
  unfold authIds
  split
  · apply if_neg
    rintro ⟨rfl, hstate⟩
    have hlog : client.mayLogIn .nothing = true := by simp [mayLogIn, hstate]
    obtain ⟨conn, hw⟩ := Option.isSome_iff_exists.mp (wired (.inl hlog))
    simp [writes?, frame?, hw, hstate] at h
  · rfl

lemma Looked.wired {deadline : Duration}
    (h : Looked now deadline client net client' net' wait' incidents)
    (hwriter : client.writer.isSome) : client'.Wired wait' := by
  intro _
  cases h <;> exact hwriter

lemma Wired.keep (wired : client.Wired wait) (hstate : client'.state = client.state)
    (hwriter : client'.writer = client.writer) : client'.Wired wait := by
  simpa only [Wired, mayLogIn, isAuthenticated, hstate, hwriter] using wired

lemma Moved.wired (h : Moved now client net wait move client' net' wait' incidents)
    (wired : client.Wired wait) : client'.Wired wait' := by
  cases h with
  | still _ hwait =>
    rcases hwait with rfl | ⟨hw, hw'⟩
    · exact wired
    · simpa [Wired, mayLogIn, (Wait.not_inCall_iff.mp hw).2, (Wait.not_inCall_iff.mp hw').2]
        using wired
  | refused | late => exact wired
  | connecting | expired => exact wired
  | connected => exact fun _ => rfl
  | unsendable | unsent | hasty => exact wired.keep rfl rfl
  | sent hstate _ _ _ hlook => exact hlook.wired (wired (.inl (by simp [mayLogIn, hstate])))
  | resumed hlook => exact hlook.wired (wired (.inl (by simp [mayLogIn, Wait.isLoggingIn])))
  | chat | beat | lastBeat => exact wired.keep rfl rfl
  | heartbeat => exact wired
  | started _ hw =>
    intro _
    rw [startedOn_writer, hw]
    rfl
  | stopped => simp [Wired, mayLogIn, isAuthenticated, Client.stopped, Wait.isLoggingIn]
  | received =>
    rw [handleAll_client]
    exact wired.keep rfl rfl
  | hungUp | broke =>
    rintro (hlog | hauth)
    · rw [mayLogIn_of_ne (by simp [haltedBy])] at hlog
      have hw := wired (.inl (by simp [mayLogIn, hlog]))
      simpa [handleAll_client, haltedBy] using hw
    · simp [isAuthenticated, haltedBy] at hauth

lemma Looked.keeps {deadline : Duration}
    (h : Looked now deadline client net client' net' wait' incidents) :
    client'.id = client.id ∧ client'.drawn = client.drawn ∧ client'.pending = client.pending ∧
      incidents.filterMap Incident.sample? = [] := by
  cases h <;> exact ⟨rfl, rfl, rfl, rfl⟩

lemma Moved.draws (h : Moved now client net wait move client' net' wait' incidents)
    (wired : client.Wired wait) :
    client'.id = client.id ∧
      (client.chatIds wait move ++ client.authIds wait move = [] ∧ client'.drawn = client.drawn ∨
        client.chatIds wait move ++ client.authIds wait move = [client.drawId.1] ∧
          client'.drawn = client.drawn + 1) := by
  cases h with
  | still hwrites =>
    rw [chatIds_of_silent wired hwrites, authIds_of_silent wired hwrites]
    exact ⟨rfl, .inl ⟨rfl, rfl⟩⟩
  | unsendable hstate | unsent hstate | hasty hstate =>
    exact ⟨rfl, .inr ⟨by simp [chatIds, authIds, message?, hstate], rfl⟩⟩
  | sent hstate _ _ _ hlook =>
    obtain ⟨hid, hdrawn, _⟩ := hlook.keeps
    exact ⟨hid, .inr ⟨by simp [chatIds, authIds, message?, hstate], hdrawn⟩⟩
  | resumed hlook =>
    obtain ⟨hid, hdrawn, _⟩ := hlook.keeps
    exact ⟨hid, .inl ⟨rfl, hdrawn⟩⟩
  | @chat act _ _ _ _ _ hm hauth =>
    have hnone : client.authIds .nothing (.begin act) = [] := by
      cases act <;> first | rfl | cases hm
    refine ⟨rfl, .inr ⟨?_, rfl⟩⟩
    rw [hnone]
    simp [chatIds, hm, hauth]
  | started => exact ⟨client.endCurrentSession_id, .inl ⟨by simp [chatIds, authIds, message?],
      client.endCurrentSession_drawn⟩⟩
  | stopped => exact ⟨client.endCurrentSession_id, .inl ⟨by simp [chatIds, authIds, message?],
      client.endCurrentSession_drawn⟩⟩
  | received | hungUp | broke =>
    rw [handleAll_client]
    exact ⟨rfl, .inl ⟨rfl, rfl⟩⟩
  | _ => exact ⟨rfl, .inl ⟨by simp [chatIds, authIds, message?], rfl⟩⟩

/-- A chat enters the table under the id just drawn. Else all that happens to the table, and all samples
that are taken, come from the frames that are heard. -/
lemma Moved.table (h : Moved now client net wait move client' net' wait' incidents)
    (wired : client.Wired wait) :
    client.chatIds wait move = [client.drawId.1] ∧ client.heard net move = [] ∧
        client'.pending = client.pending.insert client.drawId.1 now ∧
        incidents.filterMap Incident.sample? = [] ∨
      client.chatIds wait move = [] ∧
        client'.pending = (client.heard net move).foldl Pending.hear client.pending ∧
        (incidents.filterMap Incident.sample?).length =
          client.pending.matched (client.heard net move) := by
  cases h with
  | still hwrites _ hover hskip =>
    have hs := List.Subset.trans hskip Incident.skipped_subset_harmless
    have hheard : client.heard net move = [] := by
      cases move with
      | receive session =>
        have hnone : client.receiver? session = none := hover
        simp [heard, finds, hnone]
      | _ => rfl
    rw [chatIds_of_silent wired hwrites, hheard]
    refine .inr ⟨rfl, rfl, ?_⟩
    have hle := Incident.length_samples_le incidents
    rw [Incident.tally_of_harmless hs] at hle
    exact Nat.le_zero.mp hle
  | sent hstate _ _ _ hlook | resumed hlook =>
    obtain ⟨_, _, hpending, hsample⟩ := hlook.keeps
    refine .inr ⟨by simp [chatIds, message?], hpending, ?_⟩
    rw [hsample]
    rfl
  | @chat act _ _ _ result _ hm hauth =>
    refine .inl ⟨by simp [chatIds, hm, hauth], rfl, rfl, ?_⟩
    cases result <;> rfl
  | started => exact .inr ⟨by simp [chatIds, message?], client.endCurrentSession_pending, rfl⟩
  | stopped => exact .inr ⟨by simp [chatIds, message?], client.endCurrentSession_pending, rfl⟩
  | received _ hf | hungUp _ hf | broke _ hf =>
    refine .inr ⟨rfl, ?_, ?_⟩
    · rw [handleAll_client, heard, hf]
      rfl
    · simp [heard, hf, handleAll_samples, Incident.sample?]
  | @heartbeat _ _ result | @beat _ _ _ _ _ result | @lastBeat _ _ _ _ _ result =>
    refine .inr ⟨by simp [chatIds, message?], rfl, ?_⟩
    cases result <;> rfl
  | _ => exact .inr ⟨by simp [chatIds, message?], rfl, rfl⟩

lemma Moved.pending (h : Moved now client net wait move client' net' wait' incidents)
    (wired : client.Wired wait) :
    client'.pending = (client.chatIds wait move).foldl (fun pending id => pending.insert id now)
        ((client.heard net move).foldl Pending.hear client.pending) ∧
      (incidents.filterMap Incident.sample?).length =
        client.pending.matched (client.heard net move) := by
  rcases h.table wired with ⟨hc, hf, hp, hs⟩ | ⟨hc, hp, hs⟩
  · rw [hc, hf, hp, hs]
    exact ⟨rfl, rfl⟩
  · rw [hc, hp, hs]
    exact ⟨rfl, rfl⟩

end Client

end ChatLoad
